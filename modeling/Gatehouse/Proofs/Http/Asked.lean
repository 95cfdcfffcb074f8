import Gatehouse.Http
import Gatehouse.Proofs.Text.Utf8
import Mathlib.Data.List.Induction

/-!
# What an HTTP request asks

`Http.Asks r q` says which requests to a handler ask the same as the HTTP request `r`, by what
stands in the parts of `r` and not by how they are gone through: the path of its target, the last
readable value among the headers of one name, and the text of its body. The request that a handler
gets is one of them (`asks_toRequest`), and a handler cannot tell them apart (`Asks.respond_eq`).
-/

namespace Gatehouse

namespace Http

/-! ## Targets -/

/-- None of some characters stands in a text. -/
def Avoids (marks cs : List Char) : Prop :=
  ∀ c ∈ cs, c ∉ marks

/-- What may follow a path: nothing, a query or a fragment. -/
inductive IsTail : List Char → Prop
  | none : IsTail []
  | query (cs : List Char) : IsTail ('?' :: cs)
  | fragment (cs : List Char) : IsTail ('#' :: cs)

/-- The forms of the target of a request, and the path in each. -/
inductive Locates : List Char → List Char → Prop
  /-- A path on the host that is asked. -/
  | origin {path tail : List Char} (hpath : Avoids ['?', '#'] path) (htail : IsTail tail) :
      Locates ('/' :: path ++ tail) ('/' :: path)
  /-- A whole address with a path. -/
  | absolute {scheme host path tail : List Char} (hscheme : Avoids [':', '/', '?', '#'] scheme)
      (hhost : Avoids ['/', '?', '#'] host) (hpath : Avoids ['?', '#'] path)
      (htail : IsTail tail) :
      Locates (scheme ++ [':', '/', '/'] ++ host ++ '/' :: path ++ tail) ('/' :: path)
  /-- A whole address without a path, which stands for the root. -/
  | root {scheme host tail : List Char} (hscheme : Avoids [':', '/', '?', '#'] scheme)
      (hhost : Avoids ['/', '?', '#'] host) (htail : IsTail tail) :
      Locates (scheme ++ [':', '/', '/'] ++ host ++ tail) ['/']
  /-- The server as a whole. -/
  | asterisk : Locates ['*'] ['*']
  /-- A host and perhaps a port, which is nowhere on the host. -/
  | authority {host : List Char} (hhost : Avoids ['/', '?', '#'] host) (hstar : host ≠ ['*']) :
      Locates host []

section Avoids

variable {marks cs ds : List Char}

theorem Avoids.append (hcs : Avoids marks cs) (hds : Avoids marks ds) :
    Avoids marks (cs ++ ds) := by
  intro c hc
  cases List.mem_append.mp hc with
  | inl hc => exact hcs c hc
  | inr hc => exact hds c hc

theorem Avoids.subset {fewer : List Char} (h : Avoids marks cs) (hfewer : fewer ⊆ marks) :
    Avoids fewer cs :=
  fun c hc hmark => h c hc (hfewer hmark)

theorem Avoids.not_mem {m : Char} (h : Avoids marks cs) (hm : m ∈ marks) : m ∉ cs :=
  fun hmem => h m hmem hm

end Avoids

theorem dropQuery_append {cs tail : List Char} (hcs : Avoids ['?', '#'] cs) (htail : IsTail tail) :
    dropQuery (cs ++ tail) = cs := by
  have hkept : ∀ c ∈ cs, (c != '?' && c != '#') = true := by
    intro c hc
    simpa using hcs c hc
  have hrest : dropQuery tail = [] := by cases htail <;> rfl
  unfold dropQuery at hrest ⊢
  rw [List.takeWhile_append_of_pos hkept, hrest, List.append_nil]

theorem afterScheme?_append {scheme : List Char} (h : ':' ∉ scheme) (rest : List Char) :
    afterScheme? (scheme ++ [':', '/', '/'] ++ rest) = some rest := by
  induction scheme with
  | nil => rfl
  | cons c scheme ih =>
    obtain ⟨hne, hmem⟩ := List.ne_and_not_mem_of_not_mem_cons h
    have hskip : afterScheme? (c :: scheme ++ [':', '/', '/'] ++ rest) =
        afterScheme? (scheme ++ [':', '/', '/'] ++ rest) := by
      rw [List.cons_append, List.cons_append, afterScheme?]
      intro _ hc
      exact absurd hc.symm hne
    rw [hskip, ih hmem]

theorem afterScheme?_of_no_slash {cs : List Char} (h : '/' ∉ cs) : afterScheme? cs = none := by
  induction cs with
  | nil => rfl
  | cons c cs ih =>
    obtain ⟨hne, hmem⟩ := List.ne_and_not_mem_of_not_mem_cons h
    rw [afterScheme?, ih hmem]
    rintro rest hc rfl
    simp at hmem

theorem dropWhile_host {host : List Char} (h : '/' ∉ host) (rest : List Char) :
    (host ++ rest).dropWhile (· != '/') = rest.dropWhile (· != '/') := by
  apply List.dropWhile_append_of_pos
  intro c hc
  simp only [bne_iff_ne]
  rintro rfl
  exact h hc

/-- The path of a target that is no path itself. -/
theorem path_of_dropQuery {uri : String} {cs : List Char} (h : dropQuery uri.toList = cs)
    (hslash : cs.head? ≠ some '/') (hstar : cs ≠ ['*']) :
    path uri =
      match afterScheme? cs with
      | none => ""
      | some rest =>
        match rest.dropWhile (· != '/') with
        | [] => "/"
        | path => String.ofList path := by
  unfold path
  rw [h]
  dsimp only
  split
  · exact absurd rfl hslash
  · exact absurd rfl hstar
  · rfl

theorem path_of_address {uri : String} {scheme host rest : List Char}
    (h : dropQuery uri.toList = scheme ++ [':', '/', '/'] ++ host ++ rest)
    (hscheme : Avoids [':', '/', '?', '#'] scheme) (hhost : Avoids ['/', '?', '#'] host) :
    path uri =
      match rest.dropWhile (· != '/') with
      | [] => "/"
      | path => String.ofList path := by
  have hslash : (scheme ++ [':', '/', '/'] ++ host ++ rest).head? ≠ some '/' := by
    cases scheme with
    | nil => simp
    | cons c scheme =>
      intro heq
      obtain rfl : c = '/' := by simpa using heq
      exact hscheme '/' List.mem_cons_self (by simp)
  have hstar : scheme ++ [':', '/', '/'] ++ host ++ rest ≠ ['*'] := by
    intro heq
    have hlength := congrArg List.length heq
    simp at hlength
    omega
  rw [path_of_dropQuery h hslash hstar, List.append_assoc,
    afterScheme?_append (hscheme.not_mem (by simp))]
  dsimp only
  rw [dropWhile_host (hhost.not_mem (by simp))]

/-- The path of a request is the one that its target locates. -/
theorem path_of_locates {uri path : String} (h : Locates uri.toList path.toList) :
    Http.path uri = path := by
  generalize huri : uri.toList = cs at h
  generalize hpath : path.toList = ps at h
  have hroundtrip : path = String.ofList ps := by rw [← hpath, String.ofList_toList]
  have hmarks : ['?', '#'] ⊆ ['/', '?', '#'] := by simp
  have hfirst : Avoids ['?', '#'] ['/'] := by simp [Avoids]
  have hsep : Avoids ['?', '#'] [':', '/', '/'] := by simp [Avoids]
  cases h with
  | @origin p tail hp htail =>
    have hcut : dropQuery uri.toList = '/' :: p := by
      rw [huri]
      exact dropQuery_append (hfirst.append hp) htail
    unfold Http.path
    rw [hcut, hroundtrip]
    rfl
  | @absolute scheme host p tail hscheme hhost hp htail =>
    have hcut : dropQuery uri.toList = scheme ++ [':', '/', '/'] ++ host ++ '/' :: p := by
      have hbefore := ((hscheme.subset (by simp)).append hsep).append (hhost.subset hmarks)
      rw [huri]
      exact dropQuery_append (hbefore.append (hfirst.append hp)) htail
    rw [path_of_address hcut hscheme hhost, hroundtrip]
    simp
  | @root scheme host tail hscheme hhost htail =>
    have hcut : dropQuery uri.toList = scheme ++ [':', '/', '/'] ++ host ++ [] := by
      have hbefore := ((hscheme.subset (by simp)).append hsep).append (hhost.subset hmarks)
      rw [huri, List.append_nil]
      exact dropQuery_append hbefore htail
    rw [path_of_address hcut hscheme hhost, hroundtrip]
    rfl
  | asterisk =>
    unfold Http.path
    rw [huri, hroundtrip]
    rfl
  | authority hhost hstar =>
    have hcut : dropQuery uri.toList = cs := by
      rw [huri]
      simpa using dropQuery_append (hhost.subset hmarks) .none
    have hno := hhost.not_mem (List.mem_cons_self)
    have hslash : cs.head? ≠ some '/' := fun heq => hno (List.mem_of_mem_head? heq)
    rw [path_of_dropQuery hcut hslash hstar, afterScheme?_of_no_slash hno, hroundtrip]

/-! ## Headers -/

/-- Two names of headers are the same but for the case of ASCII letters. -/
def SameName (name name' : String) : Prop :=
  Text.asciiLower name = Text.asciiLower name'

/-- Only visible ASCII, blanks and tabs. -/
def Visible (value : List UInt8) : Prop :=
  ∀ b ∈ value, (0x20 ≤ b ∧ b ≤ 0x7E) ∨ b = 0x09

/-- Of the values under a name that can be read, the last one is some text. -/
def IsLast (headers : List (String × List UInt8)) (name text : String) : Prop :=
  ∃ before spelling after, headers = before ++ (spelling, Utf8.encode text) :: after ∧
    SameName spelling name ∧ Visible (Utf8.encode text) ∧
    ∀ header ∈ after, SameName header.1 name → ¬ Visible header.2

theorem isVisible_iff {b : UInt8} : isVisible b = true ↔ (0x20 ≤ b ∧ b ≤ 0x7E) ∨ b = 0x09 := by
  simp [isVisible]

theorem all_isVisible_iff {value : List UInt8} : value.all isVisible = true ↔ Visible value := by
  simp only [List.all_eq_true, isVisible_iff]
  rfl

theorem Visible.ascii {value : List UInt8} (h : Visible value) : ∀ b ∈ value, b < 0x80 := by
  intro b hb
  cases h b hb with
  | inl hrange => exact UInt8.lt_of_le_of_lt hrange.2 (by decide)
  | inr htab => rw [htab]; decide

/-- A value is read as the text that it spells. -/
theorem headerText?_of_visible {value : List UInt8} (h : Visible value) :
    ∃ text, headerText? value = some text ∧ Utf8.encode text = value := by
  unfold headerText?
  rw [if_pos (all_isVisible_iff.mpr h)]
  exact ⟨_, rfl, Utf8.encode_of_decode (Utf8.decode_ascii h.ascii)⟩

theorem headerText?_of_not_visible {value : List UInt8} (h : ¬ Visible value) :
    headerText? value = none := by
  unfold headerText?
  rw [if_neg fun hall => h (all_isVisible_iff.mp hall)]

section Concat

variable {headers : List (String × List UInt8)} {header : String × List UInt8} {name : String}

/-- A further header that can be read has the last value. -/
theorem isLast_concat_of_read (hname : SameName header.1 name) (hvisible : Visible header.2)
    (text : String) :
    IsLast (headers ++ [header]) name text ↔ Utf8.encode text = header.2 := by
  constructor
  · rintro ⟨before, spelling, after, heq, -, -, hafter⟩
    rcases after.eq_nil_or_concat with rfl | ⟨after, last, rfl⟩
    · obtain ⟨-, hheader⟩ := List.append_inj' heq rfl
      rw [(List.cons.inj hheader).1]
    · have hlast : header = last := by
        rw [List.concat_eq_append, ← List.cons_append, ← List.append_assoc] at heq
        exact (List.cons.inj (List.append_inj' heq rfl).2).1
      exact absurd (hlast ▸ hvisible) (hafter last (by simp) (hlast ▸ hname))
  · intro htext
    have hheader : header = (header.1, Utf8.encode text) := by rw [htext]
    exact ⟨headers, header.1, [], by rw [← hheader], hname, htext ▸ hvisible, by simp⟩

/-- A further header of another name, or one that cannot be read, makes no difference. -/
theorem isLast_concat_of_skipped (h : SameName header.1 name → ¬ Visible header.2)
    (text : String) :
    IsLast (headers ++ [header]) name text ↔ IsLast headers name text := by
  constructor
  · rintro ⟨before, spelling, after, heq, hname, hvisible, hafter⟩
    rcases after.eq_nil_or_concat with rfl | ⟨after, last, rfl⟩
    · obtain ⟨-, hheader⟩ := List.append_inj' heq rfl
      obtain ⟨rfl, -⟩ := List.cons.inj hheader
      exact absurd hvisible (h hname)
    · rw [List.concat_eq_append, ← List.cons_append, ← List.append_assoc] at heq
      exact ⟨before, spelling, after, (List.append_inj' heq rfl).1, hname, hvisible,
        fun x hx => hafter x (by simp [hx])⟩
  · rintro ⟨before, spelling, after, rfl, hname, hvisible, hafter⟩
    refine ⟨before, spelling, after ++ [header], by simp, hname, hvisible, ?_⟩
    intro x hx
    cases List.mem_append.mp hx with
    | inl hx => exact hafter x hx
    | inr hx => exact List.mem_singleton.mp hx ▸ h

end Concat

/-- A header of the request that a handler gets is the last readable value under its name. -/
theorem header?_foldl_addHeader (r : Gatehouse.Request) (hr : ∀ name, r.header? name = none)
    (headers : List (String × List UInt8)) (name text : String) :
    (headers.foldl addHeader r).header? name = some text ↔ IsLast headers name text := by
  induction headers using List.reverseRecOn with
  | nil => simp [hr, IsLast]
  | append_singleton headers header ih =>
    rw [List.foldl_append, List.foldl_cons, List.foldl_nil]
    by_cases hvisible : Visible header.2
    · obtain ⟨value, hvalue, hencode⟩ := headerText?_of_visible hvisible
      have hadd : addHeader (headers.foldl addHeader r) header =
          (headers.foldl addHeader r).insertHeader header.1 value := by
        simp only [addHeader, hvalue]
      rw [hadd, Request.header?_insertHeader]
      by_cases hname : Text.asciiLower header.1 = Text.asciiLower name
      · rw [if_pos hname, isLast_concat_of_read hname hvisible, ← hencode, Option.some.injEq]
        exact ⟨fun h => by rw [h], fun h => (Utf8.encode_injective h).symm⟩
      · rw [if_neg hname, ih, isLast_concat_of_skipped fun h => absurd h hname]
    · have hadd : addHeader (headers.foldl addHeader r) header = headers.foldl addHeader r := by
        simp only [addHeader, headerText?_of_not_visible hvisible]
      rw [hadd, ih, isLast_concat_of_skipped fun _ => hvisible]

/-! ## Bodies -/

/-- The body that some bytes carry: none without any byte, their text, or what is wrong with bytes
that are no text. -/
inductive Carries : List UInt8 → Option String → Option Utf8.Fault → Prop
  | empty : Carries [] none none
  | text {text : String} (h : text ≠ "") : Carries (Utf8.encode text) (some text) none
  | unreadable {bytes : List UInt8} {fault : Utf8.Fault} (h : ∀ text, Utf8.encode text ≠ bytes)
      (hfault : Utf8.decode bytes = .error fault) : Carries bytes none (some fault)

theorem carries_withBodyBytes (r : Gatehouse.Request) (bytes : List UInt8) :
    Carries bytes (r.withBodyBytes bytes).body (r.withBodyBytes bytes).undecodable := by
  cases bytes with
  | nil => exact .empty
  | cons b bytes =>
    unfold Request.withBodyBytes
    dsimp only
    cases hdecode : Utf8.decode (b :: bytes) with
    | ok text =>
      have hencode := Utf8.encode_of_decode hdecode
      dsimp only
      rw [← hencode]
      apply Carries.text
      rintro rfl
      cases hencode
    | error fault =>
      refine .unreadable ?_ hdecode
      intro text htext
      rw [← htext, Utf8.decode_encode] at hdecode
      cases hdecode

theorem Carries.withBodyBytes_eq {bytes : List UInt8} {body : Option String}
    {fault : Option Utf8.Fault} (h : Carries bytes body fault) (r : Gatehouse.Request) :
    r.withBodyBytes bytes = { r with body := body, undecodable := fault } := by
  cases h with
  | empty => rfl
  | @text text hne =>
    have hdecode := Utf8.decode_encode text
    cases hbytes : Utf8.encode text with
    | nil => exact absurd (Utf8.encode_injective (hbytes : Utf8.encode text = Utf8.encode "")) hne
    | cons b bytes =>
      rw [hbytes] at hdecode
      simp only [Request.withBodyBytes, hdecode]
  | unreadable hno hfault =>
    cases bytes with
    | nil => exact absurd rfl (hno "")
    | cons b bytes => simp only [Request.withBodyBytes, hfault]

/-! ## Requests -/

/-- A request to a handler asks what an HTTP request asks. -/
structure Asks (r : Request) (q : Gatehouse.Request) : Prop where
  method : q.method = r.method
  path : q.path = Http.path r.uri
  header : ∀ name text, q.header? name = some text ↔ IsLast r.headers name text
  body : Carries r.body q.body q.undecodable

theorem withBodyBytes_keeps (r : Gatehouse.Request) (bytes : List UInt8) :
    (r.withBodyBytes bytes).method = r.method ∧ (r.withBodyBytes bytes).path = r.path ∧
      (r.withBodyBytes bytes).headers = r.headers := by
  unfold Request.withBodyBytes
  split
  · exact ⟨rfl, rfl, rfl⟩
  · split
    · exact ⟨rfl, rfl, rfl⟩
    · exact ⟨rfl, rfl, rfl⟩

theorem foldl_addHeader_keeps (r : Gatehouse.Request) (headers : List (String × List UInt8)) :
    (headers.foldl addHeader r).method = r.method ∧ (headers.foldl addHeader r).path = r.path := by
  induction headers generalizing r with
  | nil => exact ⟨rfl, rfl⟩
  | cons header headers ih =>
    rw [List.foldl_cons, (ih _).1, (ih _).2]
    unfold addHeader
    split
    · exact ⟨rfl, rfl⟩
    · exact ⟨rfl, rfl⟩

theorem asks_toRequest (r : Request) : Asks r r.toRequest := by
  let bare : Gatehouse.Request := ⟨r.method, Http.path r.uri, [], none, none⟩
  obtain ⟨hmethod, hpath, hheaders⟩ := withBodyBytes_keeps (r.headers.foldl addHeader bare) r.body
  obtain ⟨hmethod', hpath'⟩ := foldl_addHeader_keeps bare r.headers
  constructor
  · exact hmethod.trans hmethod'
  · exact hpath.trans hpath'
  · intro name text
    have hbare : ∀ name, bare.header? name = none := fun _ => rfl
    rw [← header?_foldl_addHeader bare hbare]
    unfold Request.header?
    exact iff_of_eq (congrArg (fun d => Dictionary.find? d _ = some text) hheaders)
  · exact carries_withBodyBytes _ r.body

end Http

/-! ## What a handler sees of a request -/

namespace Handler

variable {σ : Type} {q q' : Request}

theorem follow_eq_of_json (hjson : q.json = q'.json) (c : Connection σ) (route : Route)
    (claims : Claims) : follow c route claims q = follow c route claims q' := by
  cases route with
  | health => rfl
  | getUser => rfl
  | createUser => simp only [follow, addUser, hjson]

/-- A handler sees the method, the path, the credential and the JSON of a request. -/
theorem respond_eq_of_seen (hmethod : q.method = q'.method) (hpath : q.path = q'.path)
    (hcredential : q.header? "authorization" = q'.header? "authorization")
    (hjson : q.json = q'.json) (h : Handler σ) : h.respond q = h.respond q' := by
  have hjudge : h.gate.judge q = h.gate.judge q' := by
    simp only [Gate.judge, hcredential]
  have hanswer : ∀ claims, answer h.connection claims q = answer h.connection claims q' := by
    intro claims
    simp only [answer, unroutedEvent, hmethod, hpath, follow_eq_of_json hjson]
  simp only [respond, hjudge, hanswer]

end Handler

namespace Http.Asks

variable {r : Request} {q q' : Gatehouse.Request} (hq : Asks r q) (hq' : Asks r q')

include hq hq'

theorem header?_eq (name : String) : q.header? name = q'.header? name := by
  apply Option.ext
  intro text
  exact (hq.header name text).trans (hq'.header name text).symm

theorem json_eq : q.json = q'.json := by
  have hbody := (hq.body.withBodyBytes_eq q).symm.trans (hq'.body.withBodyBytes_eq q)
  simp only [Gatehouse.Request.mk.injEq, true_and] at hbody
  simp only [Gatehouse.Request.json, hbody]

/-- A handler does the same for all requests that ask what an HTTP request asks. -/
theorem respond_eq {σ : Type} (h : Handler σ) : h.respond q = h.respond q' := by
  apply Handler.respond_eq_of_seen
  · exact hq.method.trans hq'.method.symm
  · exact hq.path.trans hq'.path.symm
  · exact hq.header?_eq hq' "authorization"
  · exact hq.json_eq hq'

end Http.Asks

end Gatehouse
