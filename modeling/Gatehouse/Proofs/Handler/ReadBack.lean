import Gatehouse.Proofs.Connection.Queries
import Gatehouse.Proofs.Handler.Statements
import Gatehouse.Proofs.Json.Built
import Gatehouse.Proofs.Json.Compact

/-!
# Reading back what was posted

The body that shows a user is the text of the first row that was found and of nothing else. Without
doubles it is compact JSON with its keys in the order of their bytes, and as the body of a request
it is read as the row again, unless an object in the row has the marker for its first key or the row
is nested too deep (`posted_reads_back`). Neither comes from a posted body that is without the
marker.
-/

namespace Gatehouse

open Json (Value maxDepth)

variable {σ : Type}

/-! ## The text of a row -/

theorem Row.compact_render {row : Row} (hproper : row.toJson.Proper) (hexact : row.toJson.Exact) :
    Json.Compact (.value row.toJson) (Utf8.encode row.toJson.render) :=
  Json.compact_render hproper hexact

theorem Row.json_of_render {row : Row} (hproper : row.toJson.Proper) (hexact : row.toJson.Exact)
    (hunmarked : row.toJson.Unmarked) (hwithin : row.toJson.Within maxDepth) (q : Request) :
    (q.withBody row.toJson.render).json = .ok row.toJson :=
  q.json_withBody ((Row.compact_render hproper hexact).parse hwithin hunmarked)

theorem Json.parse_render (v : Value) :
    parse v.render = (Reader.value maxDepth).run (Utf8.encodeChars v.chars) := by
  rw [parse, v.encode_render]

theorem Row.refused_of_render {row : Row} (h : (Json.parse row.toJson.render).isOk = false)
    (q : Request) (v : Value) : (q.withBody row.toJson.render).json ≠ .ok v := by
  intro hjson
  obtain ⟨body, hbody, hparse⟩ := (q.withBody row.toJson.render).exists_body_of_json hjson
  cases hbody
  rw [hparse] at h
  cases h

/-! ## The row of a new user -/

/-- The row that has the two columns of a new user. -/
def NewUser.row (u : NewUser) : Row :=
  [("email", u.email), ("username", u.username)]

theorem NewUser.forall_parts_row {u : NewUser} {p : Value → Prop} (husername : p u.username)
    (hemail : p u.email) : ∀ v ∈ u.row.toJson.parts, p v := by
  simpa [Row.toJson, NewUser.row, Value.parts] using And.intro hemail husername

theorem NewUser.everywhere_row {u : NewUser} {p : Value → Prop} (hrow : p u.row.toJson)
    (husername : u.username.Everywhere p) (hemail : u.email.Everywhere p) :
    u.row.toJson.Everywhere p :=
  .intro hrow (forall_parts_row husername hemail)

theorem NewUser.within_row {u : NewUser} {n : Nat} (husername : u.username.Within n)
    (hemail : u.email.Within n) : u.row.toJson.Within (n + 1) :=
  .inside (forall_parts_row husername hemail)

theorem NewUser.unmarked_row (u : NewUser) (husername : u.username.Unmarked)
    (hemail : u.email.Unmarked) : u.row.toJson.Unmarked := by
  have hfirst : "email" ≠ Json.embeddedKey := by decide
  apply NewUser.everywhere_row _ husername hemail
  rintro m ⟨⟩
  exact hfirst

theorem NewUser.ascending_row (u : NewUser) : Dictionary.Ascending u.row := by
  have hlt : "email" < "username" := by decide
  exact List.pairwise_cons.mpr ⟨List.forall_mem_singleton.mpr hlt, List.pairwise_singleton _ _⟩

/-! ## Values that a row cannot be read back with -/

namespace Json

open Reader (Reads Gathers reads_members reads_word reads_string)

/-- An object that has the marker for its first key, in whatever order its members are posted. -/
def Value.swapped : Value :=
  .object [(embeddedKey, .string "1"), ("a", .null)]

/-- Lists in one another, with so many around the innermost one. -/
def Value.lists : Nat → Value
  | 0 => .array []
  | n + 1 => .array [lists n]

theorem Value.exact_swapped : swapped.Exact := by
  have hstring : (Value.string "1").Exact := .atom rfl trivial
  have hnull : Value.null.Exact := .atom rfl trivial
  apply Everywhere.intro trivial
  simpa [swapped, parts] using And.intro hstring hnull

theorem Value.everywhere_lists {p : Value → Prop} (h : ∀ vs, p (.array vs)) (n : Nat) :
    (lists n).Everywhere p := by
  induction n with
  | zero => exact .intro (h []) nofun
  | succ n ih => exact .intro (h _) (List.forall_mem_singleton.mpr ih)

theorem Value.within_lists (n : Nat) : (lists n).Within (n + 1) := by
  induction n with
  | zero => exact .inside nofun
  | succ n ih => exact .inside (List.forall_mem_singleton.mpr ih)

theorem parse_render_lists {n : Nat} (h : n < maxDepth) :
    parse (Value.lists n).render = .ok (.lists n) := by
  have hproper : (Value.lists n).Proper := Value.everywhere_lists (fun _ => trivial) n
  have hexact : (Value.lists n).Exact := Value.everywhere_lists (fun _ => trivial) n
  have hwithin : (Value.lists n).Within maxDepth := (Value.within_lists n).mono h
  exact (compact_render hproper hexact).parse hwithin (Value.everywhere_lists (fun _ => trivial) n)

/-- What a member is read as may differ from what it was printed from. -/
theorem parse_render_of_reads {k : String} {v p : Value} {room : Nat} (hk : k ≠ embeddedKey)
    (h : Reads room (Utf8.encode v.render) p) (hroom : room < maxDepth) :
    parse (Value.object [(k, v)]).render = .ok (.object [(k, p)]) := by
  rw [Value.encode_render] at h
  exact parse_of_member hk (members_chars [(k, v)]) h hroom

theorem reads_swapped :
    Reads 1 (Utf8.encode (Value.object [("a", .null), (embeddedKey, .string "1")]).render)
      .swapped := by
  have hfirst : "a" ≠ embeddedKey := by decide
  have hnull : Reads 0 (Utf8.encodeChars "null".toList) .null := reads_word .null fun _ _ => rfl
  have hgathers : Gathers 0 (printedMembers [("a", .null), (embeddedKey, .string "1")]) []
      [(embeddedKey, .string "1"), ("a", .null)] :=
    .cons hnull (.cons (reads_string (spellsString_stringChars "1")) (.nil _))
  refine reads_members (members_chars _) ?_ hgathers
  rintro m ⟨⟩
  exact hfirst

theorem parse_swapped :
    parse "\x7b\"username\":\x7b\"a\":null,\"$serde_json::private::RawValue\":\"1\"\x7d\x7d" =
      .ok (.object [("username", .swapped)]) := by
  have hbody :
      "\x7b\"username\":\x7b\"a\":null,\"$serde_json::private::RawValue\":\"1\"\x7d\x7d" =
        (Value.object [("username",
          .object [("a", .null), (embeddedKey, .string "1")])]).render := by decide +kernel
  rw [hbody]
  exact parse_render_of_reads (by decide) reads_swapped (by decide)

/-- The room for an embedded text is that for any other, however deep it is embedded. -/
theorem parse_embedded_lists {n : Nat} (h : n < maxDepth) :
    parse (Value.object [("username",
      .object [(embeddedKey, .string (Value.lists n).render)])]).render =
        .ok (.object [("username", .lists n)]) := by
  apply parse_render_of_reads (by decide) _ (by decide : 1 < maxDepth)
  exact reads_of_embedded (members_chars [(embeddedKey, .string (Value.lists n).render)])
    (spellsString_stringChars _) (parse_render_lists h)

theorem refused_swapped :
    (parse (Value.object [("email", .null), ("username", .swapped)]).render).isOk = false := by
  rw [parse_render]
  decide +kernel

theorem refused_lists :
    (parse (Value.object [("email", .null), ("username", .lists 126)]).render).isOk = false := by
  rw [parse_render]
  decide +kernel

end Json

namespace Handler

/-! ## Showing the first row -/

/-- A request for a user is let through over a live link, and some row is the first that is
found. -/
structure Finds (h : Handler σ) (r : Request) (w : World σ) (row : Row) : Prop where
  live : w.link.connected = true
  routed : Route.resolve r.method r.path = some .getUser
  found : ∃ claims more, h.gate.judge r = .returned (.ok claims) ∧
    (h.connection.backend.fetch w.backend selectUser [.string claims.sub]).outcome =
      .answer (row :: more)

theorem ending_showUser {c : Connection σ} {id : String} {w : World σ} {row : Row}
    {more : List Row} (hlive : w.link.connected = true)
    (hfound : (c.backend.fetch w.backend selectUser [.string id]).outcome =
      .answer (row :: more)) :
    (showUser c id w).ending = .returned (.ok (.ok row.toJson.render)) := by
  have hending := c.ending_query selectUser [.string id] hlive (by decide)
  rw [hfound] at hending
  unfold showUser
  rw [Action.bind_run_of_ending _ hending]
  rfl

/-- The first row is shown, whatever rows come after it. -/
theorem Finds.ending {h : Handler σ} {r : Request} {w : World σ} {row : Row}
    (hfinds : h.Finds r w row) : (h.respond r w).ending = .returned (.ok row.toJson.render) := by
  obtain ⟨claims, more, hverdict, hfound⟩ := hfinds.found
  have hcaught : (Action.caught (follow h.connection .getUser claims r) w).ending =
      .returned (.returned (.ok (.ok row.toJson.render))) :=
    congrArg Ending.returned (ending_showUser hfinds.live hfound)
  rw [respond_of_granted w hverdict]
  unfold answer
  rw [hfinds.routed]
  dsimp only
  rw [Action.bind_run_of_ending _ hcaught]
  rfl

/-! ## What was posted -/

/-- A column holds what a member holds, or null. -/
theorem column_of_parts {p : Value → Prop} {d : Dictionary Value} (hnull : p .null)
    (hparts : ∀ v ∈ (Value.object d).parts, p v) (name : String) :
    p ((d.find? name).getD .null) := by
  cases hfind : d.find? name with
  | none => exact hnull
  | some v => exact hparts v (List.mem_map_of_mem (f := Prod.snd) (Dictionary.mem_of_find? hfind))

theorem unread_of_post {h : Handler σ} {r r' : Request} {w w' : World σ} {claims : Claims}
    {username : Value} (hverdict : h.gate.judge r = .returned (.ok claims))
    (hlive : w.link.connected = true) (hroute : Route.resolve r.method r.path = some .createUser)
    (hjson : r.json = .ok (.object [("username", username)]))
    (hfinds : h.Finds r' w' [("email", .null), ("username", username)])
    (hrefused : (Json.parse
      (Value.object [("email", .null), ("username", username)]).render).isOk = false) :
    (∃ k, 1 ≤ k ∧ (h.respond r w).calls =
      List.replicate k ⟨.execute, insertUser, [username, .null]⟩) ∧
    ∃ body, (h.respond r' w').ending = .returned (.ok body) ∧
      ∀ (q : Request) v, (q.withBody body).json ≠ .ok v := by
  obtain ⟨k, hk, -, hcalls⟩ := calls_respond_createUser hverdict hlive hroute hjson
  exact ⟨⟨k, hk, hcalls⟩, _, hfinds.ending, Row.refused_of_render hrefused⟩

/-- Reading back, for every row and every posted body. The first row that is found is shown as its
text, whatever rows come after it. Without doubles the text is compact, and every request with it
for a body carries the row, if the row is at most 127 deep and no object in it has the marker for
its first key. The columns of a posted object are bound as they were read, and the row of the two is
read back in the same way. They are at most 126 deep wherever the body is read the same without a
meaning for the marker. -/
theorem posted_reads_back (h : Handler σ) :
    (∀ (row : Row) r w, h.Finds r w row →
      (h.respond r w).ending = .returned (.ok row.toJson.render)) ∧
    (∀ row : Row, row.toJson.Proper → row.toJson.Exact →
      Json.Compact (.value (.object row)) (Utf8.encode row.toJson.render) ∧
      (row.toJson.Unmarked → row.toJson.Within 127 →
        ∀ q : Request, (q.withBody row.toJson.render).json = .ok (.object row))) ∧
    ∀ r w claims (d : Dictionary Value), h.gate.judge r = .returned (.ok claims) →
      w.link.connected = true → Route.resolve r.method r.path = some .createUser →
      r.json = .ok (.object d) →
      ∃ u : NewUser, u.username = (d.find? "username").getD .null ∧
        u.email = (d.find? "email").getD .null ∧
        (∃ k, 1 ≤ k ∧ (h.respond r w).calls =
          List.replicate k ⟨.execute, insertUser, [u.username, u.email]⟩) ∧
        (u.username.Exact → u.email.Exact →
          ∀ r' w', h.Finds r' w' [("email", u.email), ("username", u.username)] →
          ∃ body : String, (h.respond r' w').ending = .returned (.ok body) ∧
            Json.Compact (.value (.object [("email", u.email), ("username", u.username)]))
              (Utf8.encode body) ∧
            (u.username.Unmarked → u.email.Unmarked → u.username.Within 126 →
              u.email.Within 126 → ∀ q : Request, (q.withBody body).json =
                .ok (.object [("email", u.email), ("username", u.username)]))) ∧
        ∀ body, r.body = some body →
          (Json.Reader.plainValue maxDepth).run (Utf8.encode body) = .ok (.object d) →
          u.username.Within 126 ∧ u.email.Within 126 := by
  refine ⟨fun row r w => Finds.ending, ?_, ?_⟩
  · intro row hproper hexact
    exact ⟨Row.compact_render hproper hexact, Row.json_of_render hproper hexact⟩
  · intro r w claims d hverdict hlive hroute hjson
    obtain ⟨k, hk, -, hcalls⟩ := calls_respond_createUser hverdict hlive hroute hjson
    obtain ⟨posted, hposted, hparse⟩ := r.exists_body_of_json hjson
    let u : NewUser := ⟨(d.find? "username").getD .null, (d.find? "email").getD .null⟩
    have hcolumn : ∀ name, ((d.find? name).getD .null).Proper :=
      column_of_parts (.atom rfl trivial) (Json.proper_of_parse hparse).parts
    have hproper : u.row.toJson.Proper :=
      NewUser.everywhere_row u.ascending_row (hcolumn "username") (hcolumn "email")
    refine ⟨u, rfl, rfl, ⟨k, hk, hcalls⟩, ?_, ?_⟩
    · intro husername hemail r' w' hfinds
      have hexact : u.row.toJson.Exact := NewUser.everywhere_row trivial husername hemail
      refine ⟨_, hfinds.ending, Row.compact_render hproper hexact, ?_⟩
      intro husername hemail hwusername hwemail
      exact Row.json_of_render hproper hexact (u.unmarked_row husername hemail)
        (NewUser.within_row hwusername hwemail)
    · intro body hbody hrun
      have hwithin : (Value.object d).Within 127 := Json.within_of_plainValue hrun
      have hcolumn : ∀ name, ((d.find? name).getD .null).Within 126 :=
        column_of_parts (.atom rfl) hwithin.parts
      exact ⟨hcolumn "username", hcolumn "email"⟩

/-- A user without an address is posted and shown, and what is shown is read back, though another
row comes after it. Of a body without any column both are null. -/
theorem posted_reads_back_null_columns :
    let claims : Claims := ⟨"7", .user, 0, 0⟩
    let h : Handler Backend.Script :=
      ⟨⟨"", fun _ _ => .returned (.ok claims)⟩, .ofTarget "db" .scripted⟩
    let row : Row := [("email", .null), ("username", .string "x")]
    let w : World Backend.Script :=
      ⟨⟨⟨1, 1⟩, true⟩, ⟨[.answer [row, Backend.simulatedRow]], []⟩⟩
    let asks : Request := ⟨"GET", "/api/user", [("authorization", "x")], none, none⟩
    let posts : Request := ⟨"POST", "/api/user", [("authorization", "x")], none, none⟩
    (∃ k, 1 ≤ k ∧ (h.respond (posts.withBody "\x7b\"username\":\"x\"\x7d") w).calls =
      List.replicate k ⟨.execute, insertUser, [.string "x", .null]⟩) ∧
    (h.respond asks w).ending = .returned (.ok row.toJson.render) ∧
    (posts.withBody row.toJson.render).json = .ok (.object row) ∧
    (∃ body, (h.respond asks w).ending = .returned (.ok body) ∧
      Json.Compact (.value (.object row)) (Utf8.encode body) ∧
      (posts.withBody body).json = .ok (.object row)) ∧
    ∃ k, 1 ≤ k ∧ (h.respond (posts.withBody "\x7b\x7d") w).calls =
      List.replicate k ⟨.execute, insertUser, [.null, .null]⟩ ∧ Value.null.Within 126 := by
  intro claims h row w asks posts
  have hparse := Json.parse_render_of_string "username" "x" (by decide)
  have hjson : (posts.withBody "\x7b\"username\":\"x\"\x7d").json =
      .ok (.object [("username", .string "x")]) := posts.json_withBody hparse
  have hplain : (Json.Reader.plainValue maxDepth).run (Utf8.encode "\x7b\x7d") =
      .ok (.object []) := rfl
  have hempty : (posts.withBody "\x7b\x7d").json = .ok (.object []) := rfl
  have hfinds : h.Finds asks w row := ⟨rfl, by decide, claims, _, rfl, rfl⟩
  let u : NewUser := ⟨.string "x", .null⟩
  obtain ⟨hshows, hrows, hposts⟩ := posted_reads_back h
  have hproper : row.toJson.Proper :=
    NewUser.everywhere_row (u := u) u.ascending_row (.atom rfl trivial) (.atom rfl trivial)
  have hexact : row.toJson.Exact :=
    NewUser.everywhere_row (u := u) trivial (.atom rfl trivial) (.atom rfl trivial)
  have hunmarked : row.toJson.Unmarked := u.unmarked_row (.atom rfl trivial) (.atom rfl trivial)
  have hwithin : row.toJson.Within 127 := NewUser.within_row (u := u) (.atom rfl) (.atom rfl)
  have hrow := (hrows row hproper hexact).2 hunmarked hwithin posts
  obtain ⟨⟨_, _⟩, rfl, rfl, hcalls, hshown, -⟩ := hposts _ w claims _ rfl rfl (by decide) hjson
  obtain ⟨⟨_, _⟩, rfl, rfl, ⟨k, hk, hcalls'⟩, -, hdeep⟩ :=
    hposts _ w claims _ rfl rfl (by decide) hempty
  obtain ⟨body, hending, hcompact, hread⟩ :=
    hshown (.atom rfl trivial) (.atom rfl trivial) asks w hfinds
  have hcarried := hread (.atom rfl trivial) (.atom rfl trivial) (.atom rfl) (.atom rfl) posts
  exact ⟨hcalls, hshows row asks w hfinds, hrow, ⟨body, hending, hcompact, hcarried⟩, k, hk,
    hcalls', (hdeep _ rfl hplain).1⟩

/-- Two bodies whose username is shown in a row that no request carries. In one row the marker is
the first key of an object, though another one came first in the body. In the other the lists are
one level too deep, which they could be in the body as a text of its own. -/
theorem not_read_back_behind_marker :
    let claims : Claims := ⟨"7", .user, 0, 0⟩
    let h : Handler Backend.Script :=
      ⟨⟨"", fun _ _ => .returned (.ok claims)⟩, .ofTarget "db" .scripted⟩
    let asks : Request := ⟨"GET", "/api/user", [("authorization", "x")], none, none⟩
    let posts : Request := ⟨"POST", "/api/user", [("authorization", "x")], none, none⟩
    ∀ posted ∈ [
      ("\x7b\"username\":\x7b\"a\":null,\"$serde_json::private::RawValue\":\"1\"\x7d\x7d",
        Value.swapped),
      ((Value.object [("username",
          .object [(Json.embeddedKey, .string (Value.lists 126).render)])]).render,
        Value.lists 126)],
      let row : Row := [("email", .null), ("username", posted.2)]
      let w : World Backend.Script := ⟨⟨⟨1, 1⟩, true⟩, ⟨[.answer [row]], []⟩⟩
      (posts.withBody posted.1).json = .ok (.object [("username", posted.2)]) ∧
        posted.2.Exact ∧
        (∃ k, 1 ≤ k ∧ (h.respond (posts.withBody posted.1) w).calls =
          List.replicate k ⟨.execute, insertUser, [posted.2, .null]⟩) ∧
        ∃ body, (h.respond asks w).ending = .returned (.ok body) ∧
          ∀ (q : Request) v, (q.withBody body).json ≠ .ok v := by
  intro claims h asks posts
  have hroute : Route.resolve "POST" "/api/user" = some .createUser := by decide
  have hroute' : Route.resolve "GET" "/api/user" = some .getUser := by decide
  rintro ⟨body, username⟩ hposted row w
  have hlive : w.link.connected = true := rfl
  have hverdict : h.gate.judge (posts.withBody body) = .returned (.ok claims) := rfl
  have hfinds : h.Finds asks w row := ⟨hlive, hroute', claims, _, rfl, rfl⟩
  have hexact : (Value.lists 126).Exact := Value.everywhere_lists (fun _ => trivial) 126
  simp only [List.mem_cons, Prod.mk.injEq, List.not_mem_nil, or_false] at hposted
  rcases hposted with ⟨rfl, rfl⟩ | ⟨rfl, rfl⟩
  · have hjson := posts.json_withBody Json.parse_swapped
    obtain ⟨hcalls, hshown⟩ :=
      unread_of_post hverdict hlive hroute hjson hfinds Json.refused_swapped
    exact ⟨hjson, Value.exact_swapped, hcalls, hshown⟩
  · have hjson := posts.json_withBody (Json.parse_embedded_lists (n := 126) (by decide))
    obtain ⟨hcalls, hshown⟩ :=
      unread_of_post hverdict hlive hroute hjson hfinds Json.refused_lists
    exact ⟨hjson, hexact, hcalls, hshown⟩

end Handler

end Gatehouse
