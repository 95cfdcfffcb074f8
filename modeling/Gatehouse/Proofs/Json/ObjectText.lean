import Gatehouse.Proofs.Json.ValueText

/-!
# Objects by their text

The members of an object are worth what their own texts are worth, and of those with one key the
last counts (`Gathers.find?_eq`). Behind the marker an object is worth the text in its string, which
counts by itself however deep it is embedded (`parseNested_stable`). With this the reader of any
value takes texts and nothing else (`takes_value`), and so does `parse` (`read_of_parse`).
-/

namespace Gatehouse.Json

namespace Reader

variable {n room : Nat} {c : Cursor}

/-! ## The last member with a key -/

/-- What stands under a key is the value of the last text with the key, or what stood there. -/
theorem Gathers.find?_eq {ms : List (String × List UInt8)} {d d' : Dictionary Value}
    (h : Gathers room ms d d') (key : String) :
    match (textsOf key ms).getLast? with
    | none => d'.find? key = d.find? key
    | some v => ∃ p, Reads room v p ∧ d'.find? key = some p := by
  induction h with
  | nil d => rfl
  | @cons k v p ms d d' h _ ih =>
    by_cases hk : k = key
    · subst hk
      rw [textsOf_cons_self, List.getLast?_cons]
      cases hlast : (textsOf k ms).getLast? with
      | none =>
        rw [hlast] at ih
        exact ⟨p, h, by rw [ih, Dictionary.find?_insert_self]⟩
      | some v' =>
        rw [hlast] at ih
        exact ih
    · rw [textsOf_cons_of_ne hk]
      cases hlast : (textsOf key ms).getLast? with
      | none =>
        rw [hlast] at ih
        show d'.find? key = d.find? key
        rw [ih, Dictionary.find?_insert_of_ne d p (Ne.symm hk)]
      | some v' =>
        rw [hlast] at ih
        exact ih

/-! ## Members -/

theorem Trail.bounds {ms : List (String × List UInt8)} {t : List UInt8} (h : Trail ms t) :
    ms.length < t.length ∧ ∀ m ∈ ms, m.2.length < t.length := by
  induction h with
  | close hw =>
    refine ⟨by rw [List.length_append]; exact Nat.lt_add_left _ Nat.one_pos, ?_⟩
    intro m hm
    cases hm
  | more _ _ hm _ ih =>
    obtain ⟨q, w1, w2, rfl, -, -, -, -⟩ := hm
    simp only [List.length_append, List.length_cons, List.mem_cons]
    refine ⟨by omega, ?_⟩
    rintro m (rfl | hm)
    · dsimp only
      omega
    · have hlt := ih.2 m hm
      omega

theorem Members.bounds {ms : List (String × List UInt8)} {t : List UInt8} (h : Members ms t) :
    ∀ m ∈ ms, m.2.length < t.length := by
  cases h with
  | none =>
    intro m hm
    cases hm
  | some _ hm ht =>
    obtain ⟨q, w1, w2, rfl, -, -, -, -⟩ := hm
    simp only [List.length_append, List.length_cons, List.mem_cons]
    rintro m (rfl | hm)
    · dsimp only
      omega
    · have hlt := (Trail.bounds ht).2 m hm
      omega

theorem memberLaw_valueMember {item : Reader Value} (hitem : TakesValue n room item) :
    MemberLaw (fun ms d d' => (∀ m ∈ ms, m.2.length ≤ n) → Gathers room ms d d')
      (valueMember item) := by
  intro k d c
  unfold valueMember
  apply Ends.bind ends_colon
  rintro _ c1 ⟨w, hw, hc1⟩
  apply Ends.bind (hitem c1)
  rintro p c2 ⟨w', v, hw', hv, hc2, hread⟩
  refine ⟨w, w', v, hw, hw', hv, by rw [hc1, hc2], fun ms d' hms hlength => ?_⟩
  exact .cons (hread (hlength _ List.mem_cons_self)).reads
    (hms fun m hm => hlength m (List.mem_cons_of_mem _ hm))

section Back

variable {room' : Nat} (hroom : room ≤ room') {d d' : Dictionary Value}
  {good : Dictionary Value → Cursor → Prop} {bad : Cursor → Prop}

include hroom in
theorem ends_valueMember_reads {k : String} {v w w' t : List UInt8} {p : Value} (hw : Blanks w)
    (hw' : Blanks w') (hread : Reads room v p) (hn : v.length ≤ n) (ht : Ended t)
    (h : c.rest = w ++ Byte.colon :: (w' ++ (v ++ t)))
    (hgood : ∀ e, e.rest = t → good (d.insert k p) e) :
    Ends (valueMember (valueWithin (some (parseNested n)) room') k d) c good bad := by
  unfold valueMember
  rw [ends_bind]
  refine ends_colon_of hw h fun c1 hc1 => ?_
  rw [ends_bind]
  exact hread.ends hn hroom hw' ht hc1 hgood

include hroom in
theorem ends_trail_reads {ms : List (String × List UInt8)} {t r : List UInt8} (ht : Trail ms t)
    (hgathers : Gathers room ms d d') (hn : ∀ m ∈ ms, m.2.length ≤ n) {k : Nat}
    (hk : ms.length < k) (h : c.rest = t ++ r)
    (hgood : ∀ e, e.rest = Byte.closeBrace :: r → good d' e) :
    Ends (membersUpTo (valueMember (valueWithin (some (parseNested n)) room')) k false d) c good
      bad := by
  induction ht generalizing d k c with
  | close hw =>
    obtain ⟨k, rfl⟩ := Nat.exists_eq_add_of_lt hk
    cases hgathers
    rw [List.append_assoc] at h
    exact ends_membersUpTo_close hw h hgood
  | more hw hw' hm ht ih =>
    obtain ⟨k, rfl⟩ := Nat.exists_eq_add_of_lt hk
    obtain ⟨q, w1, w2, rfl, hq, hw1, hw2, -⟩ := hm
    cases hgathers with
    | cons hread hgathers =>
      simp only [List.append_assoc, List.cons_append] at h
      refine ends_membersUpTo_next hw hw' hq h fun c1 hc1 => ?_
      refine ends_valueMember_reads hroom hw1 hw2 hread (hn _ List.mem_cons_self)
        (ht.spells.ended_members r) hc1 fun c2 hc2 => ?_
      refine ih hgathers (fun m hm => hn m (List.mem_cons_of_mem _ hm)) ?_ hc2
      simp only [List.length_cons]
      omega

end Back

/-! ## Objects -/

theorem fromByte_object (n room : Nat) :
    fromByte n (room + 1) Byte.openBrace = skip >>= fun _ =>
      object (objectBody (some (parseNested n)) (valueWithin (some (parseNested n)) room)) := rfl

theorem ends_objectBody_keyed {parseText : String → Except Error Value} {item : Reader Value}
    {k : String} {q w t : List UInt8} (hw : Blanks w) (hq : SpellsString k q)
    (h : c.rest = w ++ (q ++ t)) {good : Value → Cursor → Prop} {bad : Cursor → Prop}
    (hembedded : k = embeddedKey → ∀ d, d.rest = t → Ends (embedded parseText) d good bad)
    (hmembers : k ≠ embeddedKey → ∀ d, d.rest = t →
      Ends (valueMember item k []) d (fun o d => Ends (membersUpTo (valueMember item)
        (d.rest.length + 1) false o) d (fun o d => good (.object o) d) bad) bad) :
    Ends (objectBody (some parseText) item) c good bad := by
  obtain ⟨u, hu⟩ := hq.exists_quote
  have hfirst := h
  rw [hu, List.cons_append] at hfirst
  unfold objectBody
  rw [ends_bind]
  refine ends_hasKey_first hw hfirst fun d hd => ?_
  rw [if_pos rfl, ends_bind]
  unfold key
  rw [← List.cons_append, ← hu] at hd
  refine ends_quoted_of hq hd fun d1 hd1 => ?_
  by_cases hk : k = embeddedKey
  · have heq : (k == embeddedKey) = true := beq_iff_eq.mpr hk
    rw [heq]
    exact hembedded hk d1 hd1
  · have hne : (k == embeddedKey) = false := beq_eq_false_iff_ne.mpr hk
    rw [hne]
    show Ends (valueMember item k [] >>= fun o => do
      let o ← membersUpTo (valueMember item) ((← get).rest.length + 1) false o
      return .object o) d1 good bad
    simp only [ends_bind, ends_get, ends_pure]
    exact hmembers hk d1 hd1

theorem Reads.of_brace {v : List UInt8} {p : Value}
    (h : ∀ n room' c t, v.length < n → room ≤ room' → c.rest = v ++ t →
      Ends (objectBody (some (parseNested n)) (valueWithin (some (parseNested n)) room')) c
        (fun a d => Ends closeObject d (fun _ e => a = p ∧ e.rest = t) fun _ => False)
        fun d => Ends closeObject d (fun _ _ => False) fun _ => False) :
    Reads (room + 1) (Byte.openBrace :: v) p := by
  refine Reads.of_first (by decide) rfl fun n room' hn hroom c t _ hc => ?_
  obtain ⟨k, rfl⟩ := Nat.exists_eq_add_of_le' hroom
  show Ends (fromByte n (k + room + 1) Byte.openBrace) c _ _
  rw [fromByte_object, ends_bind, ends_skip]
  unfold object
  rw [ends_enclosed]
  apply h n (k + room) _ t hn (Nat.le_add_left room k)
  rw [Cursor.rest_step, hc]
  rfl

theorem reads_members {ms : List (String × List UInt8)} {u : List UInt8} {d : Dictionary Value}
    (hms : Members ms u) (hkey : ∀ m ∈ ms.head?, m.1 ≠ embeddedKey)
    (hgathers : Gathers room ms [] d) : Reads (room + 1) u (.object d) := by
  have hbound := Members.bounds hms
  cases hms with
  | @none w hw =>
    cases hgathers
    refine Reads.of_brace fun n room' c t _ hroom h => ?_
    rw [List.append_assoc] at h
    unfold objectBody
    rw [ends_bind]
    refine ends_hasKey_close hw h fun e he => ?_
    rw [if_neg Bool.false_ne_true]
    exact ends_closeObject_of Blanks.nil he fun e' he' => ⟨rfl, he'⟩
  | @some k v w m t ms hw hm ht =>
    obtain ⟨q, w1, w2, rfl, hq, hw1, hw2, -⟩ := hm
    cases hgathers with
    | cons hread hgathers =>
      refine Reads.of_brace fun n room' c r hn hroom h => ?_
      have hlength : ∀ m ∈ (k, v) :: ms, m.2.length ≤ n := fun m hm =>
        Nat.le_trans (Nat.le_of_lt_succ (hbound m hm)) (Nat.le_of_lt hn)
      simp only [List.cons_append, List.append_assoc] at h
      refine ends_objectBody_keyed hw hq h (fun hk => absurd hk (hkey _ rfl)) ?_
      intro _ d1 hd1
      refine ends_valueMember_reads hroom hw1 hw2 hread
        (hlength _ List.mem_cons_self) (ht.spells.ended_members r) hd1 fun d2 hd2 => ?_
      refine ends_trail_reads hroom ht hgathers
        (fun m hm => hlength m (List.mem_cons_of_mem _ hm)) ?_ hd2 fun d3 hd3 => ?_
      · have hcount := (Trail.bounds ht).1
        rw [hd2, List.length_append]
        omega
      · exact ends_closeObject_of Blanks.nil hd3 fun e he => ⟨rfl, he⟩

/-- A marked object is read as the text in its string is read on its own. -/
theorem reads_embedded {s : String} {q u : List UInt8} {p : Value}
    (hms : Members [(embeddedKey, q)] u) (hq : SpellsString s q)
    (hparse : ∀ m, (Utf8.encode s).length < m → parseNested m s = .ok p) :
    Reads (room + 1) u p := by
  have hbound : q.length < u.length := Members.bounds hms _ List.mem_cons_self
  have hshort := hq.length_lt
  cases hms with
  | @some k v w m t ms hw hm ht =>
    obtain ⟨q', w1, w2, rfl, hq', hw1, hw2, -⟩ := hm
    cases ht with
    | @close w3 hw3 =>
      refine Reads.of_brace fun n room' c r hn _ h => ?_
      simp only [List.cons_append, List.append_assoc, List.nil_append] at h
      refine ends_objectBody_keyed hw hq' h (fun _ d1 hd1 => ?_) fun hk => absurd rfl hk
      unfold embedded
      rw [ends_bind]
      refine ends_colon_of hw1 hd1 fun d2 hd2 => ?_
      rw [ends_bind]
      refine ends_string_of hw2 hq hd2 fun d3 hd3 => ?_
      have hbound : q.length ≤ n := Nat.le_trans (Nat.le_of_lt_succ hbound) (Nat.le_of_lt hn)
      rw [hparse n (Nat.lt_of_lt_of_le hshort hbound)]
      exact ends_closeObject_of hw3 hd3 fun e he => ⟨rfl, he⟩

theorem ends_embedded {parseText : String → Except Error Value} :
    Ends (embedded parseText) c
      (fun p d => ∃ w w' s q, Blanks w ∧ Blanks w' ∧ SpellsString s q ∧ parseText s = .ok p ∧
        c.rest = w ++ Byte.colon :: (w' ++ (q ++ d.rest)))
      fun _ => True := by
  unfold embedded
  apply Ends.bind ends_colon
  rintro _ c1 ⟨w, hw, hc1⟩
  apply Ends.bind ends_string
  rintro s c2 ⟨w', q, hw', hq, hc2⟩
  split
  · next p hp => exact ⟨w, w', s, q, hw, hw', hq, hp, by rw [hc1, hc2]⟩
  · trivial

theorem run_get {α : Type} (f : Cursor → Reader α) (bytes : List UInt8) :
    (get >>= f : Reader α).run bytes = (f (Cursor.start bytes)).run bytes := rfl

theorem parse_eq (s : String) : parse s = parseNested ((Utf8.encode s).length + 1) s := by
  unfold parse value
  rw [run_get, Cursor.rest_start, parseNested]

/-! ## What the reader takes -/

/-- What the text readers for two depths make of a text, if it is short enough for the first. -/
def Stable (n : Nat) : Prop :=
  ∀ s p, parseNested n s = .ok p → (Utf8.encode s).length < n →
    ∀ m, (Utf8.encode s).length < m → parseNested m s = .ok p

section Object

variable {k : String} {w q : List UInt8} {d : Cursor}

theorem ends_closeObject_taken (hw : Blanks w) (h : c.rest = Byte.openBrace :: (w ++ d.rest)) :
    Ends closeObject d (fun _ e => Taken n (room + 1) c (.object []) e) fun _ => True := by
  apply ends_closeObject.imp
  rintro _ e ⟨w', hw', he⟩
  have hms : Members [] (Byte.openBrace :: ((w ++ w') ++ [Byte.closeBrace])) :=
    .none (hw.append hw')
  refine ⟨_, ?_, hms.spells, fun _ => ⟨reads_members hms nofun (.nil []),
    .members hms nofun (.nil [])⟩⟩
  rw [h, he]
  simp only [List.append_assoc, List.cons_append, List.nil_append]

theorem ends_embedded_taken (hstable : Stable n) (hw : Blanks w) (hq : SpellsString embeddedKey q)
    (h : c.rest = Byte.openBrace :: (w ++ (q ++ d.rest))) :
    Ends (embedded (parseNested n)) d
      (fun p e => Ends closeObject e (fun _ e => Taken n (room + 1) c p e) fun _ => True)
      fun _ => True := by
  apply ends_embedded.imp
  rintro p d1 ⟨w1, w2, s, v, hw1, hw2, hv, hp, hd1⟩
  apply ends_closeObject.imp
  rintro _ e ⟨w3, hw3, he⟩
  have hms := Members.some hw ⟨q, w1, w2, rfl, hq, hw1, hw2, hv.spells⟩ (.close hw3)
  refine ⟨_, ?_, hms.spells, fun hlength => ?_⟩
  · rw [h, hd1, he]
    simp only [List.append_assoc, List.cons_append, List.nil_append]
  · have hbound : v.length < _ := Members.bounds hms _ List.mem_cons_self
    have hshort := hv.length_lt
    have hparse := hstable s p hp (by omega)
    refine ⟨reads_embedded hms hv hparse, .embedded hms hv ?_⟩
    rw [parse_eq]
    exact hparse _ (Nat.lt_succ_self _)

theorem ends_members_taken {item : Reader Value} (hitem : TakesValue n room item)
    (hk : k ≠ embeddedKey) (hw : Blanks w) (hq : SpellsString k q)
    (h : c.rest = Byte.openBrace :: (w ++ (q ++ d.rest))) :
    Ends (valueMember item k []) d
      (fun o e => Ends (membersUpTo (valueMember item) (e.rest.length + 1) false o) e
        (fun o e => Ends closeObject e (fun _ e => Taken n (room + 1) c (.object o) e)
          fun _ => True) fun _ => True)
      fun _ => True := by
  have hlaw := memberLaw_valueMember hitem
  apply (hlaw k [] d).imp
  rintro o d1 ⟨w1, w2, v, hw1, hw2, hv, hd1, hfirst⟩
  apply (ends_membersUpTo (fun o _ => .nil o) hlaw _ o).imp
  intro o' d2 htrail
  apply ends_closeObject.imp
  rintro _ e ⟨w3, hw3, he⟩
  obtain ⟨ms, t, ht, heq, hreads⟩ := htrail w3 e.rest hw3 he
  have hms := Members.some hw ⟨q, w1, w2, rfl, hq, hw1, hw2, hv⟩ ht
  refine ⟨_, ?_, hms.spells, fun hlength => ?_⟩
  · rw [h, hd1, heq]
    simp only [List.append_assoc, List.cons_append]
  · have hkey : ∀ m ∈ ((k, v) :: ms).head?, m.1 ≠ embeddedKey := by
      rintro m ⟨⟩
      exact hk
    have hgathers := hfirst ms o' hreads fun m hm =>
      Nat.le_of_lt (Nat.lt_of_lt_of_le (Members.bounds hms m hm) hlength)
    exact ⟨reads_members hms hkey hgathers, .members hms hkey hgathers⟩

end Object

theorem takes_object (hstable : Stable n)
    (hitem : TakesValue n room (valueWithin (some (parseNested n)) room))
    (hb : c.rest.head? = some Byte.openBrace) :
    Takes n (room + 1) (fromByte n (room + 1) Byte.openBrace) c := by
  have hrest := Cursor.rest_of_head? hb
  unfold Takes
  rw [fromByte_object, ends_bind, ends_skip]
  unfold object objectBody
  rw [ends_enclosed, ends_bind]
  refine ends_hasKey.mono ?_ fun _ _ => ends_trivial _
  rintro more d ⟨w, hw, ⟨rfl, hd, -⟩ | ⟨rfl, hquote, hd⟩⟩
  · rw [if_neg Bool.false_ne_true, ends_pure]
    exact ends_closeObject_taken hw (by rw [hrest, hd])
  · rw [if_pos rfl] at hd
    rw [if_pos rfl, ends_bind]
    refine (ends_quoted hquote).mono ?_ fun _ _ => ends_trivial _
    rintro k d1 ⟨q, hq, hd1⟩
    rw [hd, hd1] at hrest
    by_cases hk : k = embeddedKey
    · subst hk
      have htaken := @ends_embedded_taken n room c w q d1 hstable hw hq hrest
      exact htaken.mono (fun _ _ h => h) fun _ _ => ends_trivial _
    · have hne : (k == embeddedKey) = false := beq_eq_false_iff_ne.mpr hk
      rw [hne]
      show Ends (valueMember (valueWithin (some (parseNested n)) room) k [] >>= fun o => do
        let o ← membersUpTo (valueMember (valueWithin (some (parseNested n)) room))
          ((← get).rest.length + 1) false o
        return Value.object o) d1 _ _
      simp only [ends_bind, ends_get, ends_pure]
      refine (ends_members_taken hitem hk hw hq hrest).mono ?_ fun _ _ => ends_trivial _
      intro o e h
      exact h.mono (fun _ _ h => h) fun _ _ => ends_trivial _

theorem fromByte_stops {b : UInt8} (hn : b ≠ Byte.smallN) (ht : b ≠ Byte.smallT)
    (hf : b ≠ Byte.smallF) (hminus : b ≠ Byte.minus) (hquote : b ≠ Byte.quote)
    (hbracket : b ≠ Byte.openBracket) (hbrace : b ≠ Byte.openBrace)
    (hdigit : ¬ Byte.isDigit b = true) : fromByte n room b = stopAhead .expectedValue := by
  unfold fromByte valueFrom
  split
  case h_9 heq =>
    cases heq
    exact if_neg hdigit
  all_goals
    next heq => cases heq <;> contradiction

theorem takes_fromByte (hstable : Stable n)
    (hinner : ∀ k, room = k + 1 → TakesValue n k (valueWithin (some (parseNested n)) k)) {b : UInt8}
    (hb : c.rest.head? = some b) : Takes n room (fromByte n room b) c := by
  by_cases hn : b = Byte.smallN
  · subst hn
    exact takes_word (p := .null) nofun hb .null fun _ _ => rfl
  by_cases ht : b = Byte.smallT
  · subst ht
    exact takes_word (p := .bool true) nofun hb .true fun _ _ => rfl
  by_cases hf : b = Byte.smallF
  · subst hf
    exact takes_word (p := .bool false) nofun hb .false fun _ _ => rfl
  by_cases hminus : b = Byte.minus
  · subst hminus
    exact takes_negative hb
  by_cases hquote : b = Byte.quote
  · subst hquote
    exact takes_string hb
  by_cases hbracket : b = Byte.openBracket
  · subst hbracket
    cases room with
    | zero => trivial
    | succ k => exact takes_list (hinner k rfl) hb
  by_cases hbrace : b = Byte.openBrace
  · subst hbrace
    cases room with
    | zero => trivial
    | succ k => exact takes_object hstable (hinner k rfl) hb
  by_cases hdigit : Byte.isDigit b = true
  · exact takes_number hdigit hb
  · rw [fromByte_stops hn ht hf hminus hquote hbracket hbrace hdigit]
    trivial

/-- The reader of any value takes the text of a value and gives its value. -/
theorem takes_value (hstable : Stable n) (room : Nat) :
    TakesValue n room (valueWithin (some (parseNested n)) room) := by
  have hstep : ∀ room,
      (∀ k, room = k + 1 → TakesValue n k (valueWithin (some (parseNested n)) k)) →
      TakesValue n room (valueWithin (some (parseNested n)) room) := by
    intro room hinner c
    rw [valueWithin_eq]
    refine ends_valueWith_intro fun w b d hw hd hb => ?_
    apply (takes_fromByte hstable hinner hb).imp
    rintro p e ⟨v, hv, hspells, hread⟩
    exact ⟨w, v, hw, hspells, by rw [hd, hv], hread⟩
  induction room with
  | zero => exact hstep 0 nofun
  | succ room ih =>
    refine hstep (room + 1) fun k hk => ?_
    cases hk
    exact ih

/-! ## Whole texts -/

theorem Blanks.ended {w : List UInt8} (hw : Blanks w) : Ended w := by
  intro b hb
  exact .inl (hw b (List.mem_of_mem_head? hb))

theorem Reads.run {m : Nat} {w v r : List UInt8} {p : Value} (h : Reads room v p)
    (hm : v.length ≤ m) (hroom : room ≤ maxDepth) (hw : Blanks w) (hr : Blanks r) :
    (valueWithin (some (parseNested m)) maxDepth).run (w ++ (v ++ r)) = .ok p := by
  have hends : Ends (valueWithin (some (parseNested m)) maxDepth)
      (Cursor.start (w ++ (v ++ r))) (fun a d => a = p ∧ d.rest = r) fun _ => False :=
    h.ends hm hroom hw (Blanks.ended hr) rfl fun d hd => ⟨rfl, hd⟩
  obtain ⟨_, d, hread, rfl, hd⟩ := hends.exists_ok
  refine run_eq_ok.mpr ⟨d, hread, ?_⟩
  rw [hd, ← List.append_nil r, hr.dropWhile_append, List.dropWhile_nil]

theorem read_of_run (hstable : Stable n) {bytes : List UInt8} (hn : bytes.length ≤ n) {p : Value}
    (h : (valueWithin (some (parseNested n)) maxDepth).run bytes = .ok p) :
    ∃ w v r, bytes = w ++ (v ++ r) ∧ Blanks w ∧ Blanks r ∧ Spells .value v ∧
      Read maxDepth v p := by
  obtain ⟨d, hread, hd⟩ := run_eq_ok.mp h
  obtain ⟨w, v, hw, hv, hrest, hvalue⟩ :=
    (takes_value hstable maxDepth (Cursor.start bytes)).good_of_ok hread
  rw [Cursor.rest_start] at hrest
  refine ⟨w, v, d.rest, hrest, hw, blanks_of_dropWhile hd, hv, hvalue ?_⟩
  rw [hrest, List.length_append, List.length_append] at hn
  omega

/-- Allowing for more embedded texts than fit into a text makes no difference. -/
theorem parseNested_stable (n : Nat) : Stable n := by
  induction n with
  | zero =>
    intro s p _ hlength
    cases hlength
  | succ n ih =>
    intro s p hp hlength m hm
    obtain ⟨m, rfl⟩ := Nat.exists_eq_add_of_lt hm
    rw [parseNested] at hp
    -- what is read with room for `n` texts is read by its own text, whatever the room for others
    obtain ⟨w, v, r, heq, hw, hr, -, hread⟩ := read_of_run ih (Nat.le_of_lt_succ hlength) hp
    rw [parseNested, heq]
    refine hread.reads.run ?_ (Nat.le_refl _) hw hr
    rw [List.length_append, List.length_append]
    omega

/-- What a text is parsed as is the value of the text, without the blanks around it. -/
theorem read_of_parse {s : String} {p : Value} (h : parse s = .ok p) :
    ∃ w v r, Utf8.encode s = w ++ (v ++ r) ∧ Blanks w ∧ Blanks r ∧ Spells .value v ∧
      Read maxDepth v p := by
  rw [parse_eq, parseNested] at h
  exact read_of_run (parseNested_stable _) (Nat.le_refl _) h

/-- The value of a text is what the reader of any value makes of it alone. -/
theorem Reads.run_value {v : List UInt8} {p : Value} (h : Reads maxDepth v p) :
    (value maxDepth).run v = .ok p := by
  unfold value
  rw [run_get, Cursor.rest_start]
  have hrun := h.run (Nat.le_refl v.length) (Nat.le_refl _) Blanks.nil Blanks.nil
  rw [List.nil_append, List.append_nil] at hrun
  exact hrun

theorem Reads.parse {s : String} {w v r : List UInt8} {p : Value} (h : Reads maxDepth v p)
    (hw : Blanks w) (hr : Blanks r) (hs : Utf8.encode s = w ++ (v ++ r)) : parse s = .ok p := by
  rw [parse_eq, parseNested, hs]
  refine h.run ?_ (Nat.le_refl _) hw hr
  rw [List.length_append, List.length_append]
  omega

end Reader

open Reader

/-- An object with one member is read with what the member is worth, unless its key is the
marker. -/
theorem parse_of_member {text k : String} {v : List UInt8} {room : Nat} {p : Value}
    (hk : k ≠ embeddedKey) (ht : Members [(k, v)] (Utf8.encode text)) (hv : Reads room v p)
    (hroom : room < maxDepth) : parse text = .ok (.object [(k, p)]) := by
  have hkey : ∀ m ∈ [(k, v)].head?, m.1 ≠ embeddedKey := by
    rintro m ⟨⟩
    exact hk
  have hgathers : Gathers room [(k, v)] [] [(k, p)] := .cons hv (.nil _)
  have hreads : Reads maxDepth (Utf8.encode text) (.object [(k, p)]) :=
    (reads_members ht hkey hgathers).mono hroom
  exact hreads.parse Blanks.nil Blanks.nil (List.append_nil _).symm

/-- An object with a string as its one member is read as itself, unless its key is the marker. -/
theorem parse_of_members {text k s : String} {v : List UInt8} (hk : k ≠ embeddedKey)
    (ht : Members [(k, v)] (Utf8.encode text)) (hv : SpellsString s v) :
    parse text = .ok (.object [(k, .string s)]) :=
  parse_of_member hk ht (reads_string hv : Reads 0 v _) (by decide)

theorem reads_of_embedded {s : String} {q u : List UInt8} {p : Value}
    (hu : Members [(embeddedKey, q)] u) (hq : SpellsString s q) (hparse : parse s = .ok p) :
    Reads 1 u p := by
  rw [parse_eq] at hparse
  exact reads_embedded hu hq (parseNested_stable _ s p hparse (Nat.lt_succ_self _))

theorem parse_of_embedded {text s : String} {q : List UInt8} {p : Value}
    (ht : Members [(embeddedKey, q)] (Utf8.encode text)) (hq : SpellsString s q)
    (hparse : parse s = .ok p) : parse text = .ok p :=
  ((reads_of_embedded ht hq hparse).mono (by decide)).parse Blanks.nil Blanks.nil
    (List.append_nil _).symm

/-! ## The members that a text carries -/

/-- A text carries the members of the object in it, or, behind the marker, those that the text in
its string carries. -/
inductive Carries : List UInt8 → List (String × List UInt8) → Prop
  | members {w u r : List UInt8} {ms : List (String × List UInt8)} (hw : Blanks w) (hr : Blanks r)
      (hms : Members ms u) (hkey : ∀ m ∈ ms.head?, m.1 ≠ embeddedKey) :
      Carries (w ++ (u ++ r)) ms
  | embedded {w u r q : List UInt8} {s : String} {ms : List (String × List UInt8)} (hw : Blanks w)
      (hr : Blanks r) (hms : Members [(embeddedKey, q)] u) (hq : SpellsString s q)
      (h : Carries (Utf8.encode s) ms) : Carries (w ++ (u ++ r)) ms

/-- The last member with a key has some value, read by itself from its own text. A missing one
counts as null. -/
def LastValue (key : String) (ms : List (String × List UInt8)) (p : Value) : Prop :=
  match (textsOf key ms).getLast? with
  | none => p = .null
  | some v => (value maxDepth).run v = .ok p

theorem Reader.Gathers.lastValue {room : Nat} {ms : List (String × List UInt8)}
    {d : Dictionary Value} (h : Gathers room ms [] d) (hroom : room ≤ maxDepth) (key : String) :
    LastValue key ms ((d.find? key).getD .null) := by
  have hfind := h.find?_eq key
  unfold LastValue
  cases hlast : (textsOf key ms).getLast? with
  | none =>
    rw [hlast] at hfind
    show (d.find? key).getD .null = .null
    rw [hfind]
    rfl
  | some v =>
    rw [hlast] at hfind
    obtain ⟨p, hreads, hp⟩ := hfind
    rw [hp]
    exact (hreads.mono hroom).run_value

/-- An object that is read from a text has the last values of the members that the text carries. -/
theorem carries_of_parse {s : String} {d : Dictionary Value} (h : parse s = .ok (.object d)) :
    ∃ ms, Carries (Utf8.encode s) ms ∧ ∀ key, LastValue key ms ((d.find? key).getD .null) := by
  -- The text behind the marker is shorter.
  generalize hn : (Utf8.encode s).length = n
  induction n using Nat.strongRecOn generalizing s with
  | _ n ih =>
    obtain ⟨w, v, r, hs, hw, hr, -, -, hfounded⟩ := read_of_parse h
    rw [hs]
    cases hfounded with
    | other hne => exact absurd rfl (hne d)
    | members hms hkey hgathers =>
      exact ⟨_, .members hw hr hms hkey, hgathers.lastValue (Nat.sub_le _ _)⟩
    | @embedded s' q _ hms hq hparse =>
      have hbound : q.length < v.length := Members.bounds hms _ List.mem_cons_self
      have hshort := hq.length_lt
      have hlength : v.length ≤ n := by
        rw [← hn, hs, List.length_append, List.length_append]
        omega
      obtain ⟨ms, hcarries, hvalues⟩ := ih _ (by omega) hparse rfl
      exact ⟨ms, .embedded hw hr hms hq hcarries, hvalues⟩

end Gatehouse.Json
