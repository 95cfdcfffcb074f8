import Gatehouse.Proofs.Json.Skipping

/-!
# What readers take

Whatever the readers of strings, choices, keys and items give, the text that they took spells it.
Together with the laws for the other direction this makes a reading of a record as good as its text.
-/

namespace Gatehouse.Json.Reader

variable {α : Type} {c : Cursor}

/-! ## Strings and choices -/

theorem ends_quoted (h : c.rest.head? = some Byte.quote) :
    Ends (skip >>= fun _ => stringBody) c (fun s d => ∃ q, SpellsString s q ∧ c.rest = q ++ d.rest)
      fun _ => True := by
  rw [ends_bind, ends_skip]
  apply ends_stringBody.imp
  rintro s d ⟨t, bs, ht, hs, hrest⟩
  refine ⟨_, ⟨t, bs, rfl, ht, hs⟩, ?_⟩
  rw [Cursor.rest_of_head? h, hrest]
  simp only [List.cons_append, List.append_assoc, List.nil_append]

theorem ends_string {expected : String} :
    Ends (string expected) c
      (fun s d => ∃ w q, Blanks w ∧ SpellsString s q ∧ c.rest = w ++ (q ++ d.rest))
      fun _ => True := by
  unfold string
  rw [ends_placed, ends_bind]
  refine ends_ahead?_intro fun w d hw hd _ => ?_
  split
  · trivial
  · next h =>
    apply (ends_quoted h).imp
    rintro s e ⟨q, hq, hrest⟩
    exact ⟨w, q, hw, hq, by rw [hd, hrest]⟩
  · exact ends_mismatch

theorem ends_unit :
    Ends unit c (fun _ d => ∃ w, Blanks w ∧ c.rest = w ++ ([0x6E, 0x75, 0x6C, 0x6C] ++ d.rest))
      fun _ => True := by
  unfold unit
  rw [ends_placed, ends_bind]
  refine ends_ahead?_intro fun w d hw hd _ => ?_
  split
  · trivial
  · next h =>
    rw [ends_bind, ends_skip]
    apply (ends_word _).imp
    intro _ e he
    exact ⟨w, hw, by rw [hd, Cursor.rest_of_head? h, he]; rfl⟩
  · exact ends_mismatch

theorem ends_choiceName {choices : List (String × α)} (h : c.rest.head? = some Byte.quote) :
    Ends (choiceName choices) c
      (fun a d => ∃ name q, SpellsString name q ∧ choices.lookup name = some a ∧
        c.rest = q ++ d.rest)
      fun _ => True := by
  unfold choiceName
  rw [ends_placed, ← bind_assoc]
  apply Ends.bind (ends_quoted h)
  rintro name d ⟨q, hq, hrest⟩
  split
  · next a ha => exact ⟨name, q, hq, ha, hrest⟩
  · trivial

/-- What is read as a choice spells the name of the choice. -/
theorem ends_choice {room : Nat} {choices : List (String × α)} :
    Ends (choice room choices) c
      (fun a d => ∃ w name v, Blanks w ∧ SpellsChoice name v ∧ choices.lookup name = some a ∧
        c.rest = w ++ (v ++ d.rest))
      fun _ => True := by
  unfold choice
  rw [ends_bind]
  refine ends_ahead?_intro fun w d hw hd _ => ?_
  split
  · trivial
  · next h =>
    apply (ends_choiceName h).imp
    rintro a e ⟨name, q, hq, ha, hrest⟩
    exact ⟨w, name, q, hw, .inl hq, ha, by rw [hd, hrest]⟩
  · next h =>
    have hopen := Cursor.rest_of_head? h
    split
    · trivial
    · rw [ends_bind, ends_skip, ends_bind]
      refine ends_ahead?_intro fun w1 d1 hw1 hd1 _ => ?_
      split
      · trivial
      · next h1 =>
        apply Ends.bind (ends_choiceName h1)
        rintro a d2 ⟨name, q, hq, ha, hd2⟩
        apply Ends.bind ends_colon
        rintro _ d3 ⟨w2, hw2, hd3⟩
        apply Ends.bind ends_unit
        rintro _ d4 ⟨w3, hw3, hd4⟩
        rw [ends_bind]
        refine ends_ahead?_intro fun w4 d5 hw4 hd5 _ => ?_
        split
        · trivial
        · next h5 =>
          refine ⟨w, name, _, hw, .inr ⟨w1, q, w2, w3, w4, rfl, hq, hw1, hw2, hw3, hw4⟩, ha, ?_⟩
          rw [hd, hopen, hd1, hd2, hd3, hd4, hd5, Cursor.rest_of_head? h5]
          simp only [List.cons_append, List.append_assoc, List.nil_append]
          rfl
        · trivial
      · trivial
      · trivial
  · trivial

/-! ## Punctuation -/

/-- Whether a key follows is a matter of what stands ahead: a quote behind a comma, or the brace. -/
theorem ends_hasKey {first : Bool} :
    Ends (hasKey first) c
      (fun b d => ∃ w, Blanks w ∧
        ((b = false ∧ c.rest = w ++ d.rest ∧ d.rest.head? = some Byte.closeBrace) ∨
          (b = true ∧ d.rest.head? = some Byte.quote ∧
            if first then c.rest = w ++ d.rest
            else ∃ w', Blanks w' ∧ c.rest = w ++ Byte.comma :: (w' ++ d.rest))))
      fun _ => True := by
  unfold hasKey
  rw [ends_bind]
  refine ends_ahead?_intro fun w d hw hd _ => ?_
  split
  · trivial
  · next h => exact ⟨w, hw, .inl ⟨rfl, hd, h⟩⟩
  · next b _ h =>
    cases first with
    | true =>
      rw [if_pos rfl]
      split
      · next hquote =>
        rw [hquote] at h
        exact ⟨w, hw, .inr ⟨rfl, h, hd⟩⟩
      · trivial
    | false =>
      rw [if_neg Bool.false_ne_true]
      split
      · next hcomma =>
        rw [ends_bind, ends_skip, ends_bind]
        refine ends_ahead?_intro fun w' d' hw' hd' _ => ?_
        split
        · trivial
        · next h' =>
          refine ⟨w, hw, .inr ⟨rfl, h', w', hw', ?_⟩⟩
          rw [hd, Cursor.rest_of_head? h, hcomma, hd']
        · trivial
        · trivial
      · trivial

/-- Whether an item follows is a matter of what stands ahead. -/
theorem ends_hasItem {first : Bool} :
    Ends (hasItem first) c
      (fun b d => ∃ w, Blanks w ∧
        ((b = false ∧ c.rest = w ++ d.rest ∧ d.rest.head? = some Byte.closeBracket) ∨
          (b = true ∧ if first then c.rest = w ++ d.rest
            else ∃ w', Blanks w' ∧ c.rest = w ++ Byte.comma :: (w' ++ d.rest))))
      fun _ => True := by
  unfold hasItem
  rw [ends_bind]
  refine ends_ahead?_intro fun w d hw hd _ => ?_
  split
  · trivial
  · next h => exact ⟨w, hw, .inl ⟨rfl, hd, h⟩⟩
  · next b _ h =>
    cases first with
    | true => exact ⟨w, hw, .inr ⟨rfl, hd⟩⟩
    | false =>
      rw [if_neg Bool.false_ne_true]
      split
      · next hcomma =>
        rw [ends_bind, ends_skip, ends_bind]
        refine ends_ahead?_intro fun w' d' hw' hd' _ => ?_
        split
        · trivial
        · trivial
        · refine ⟨w, hw, .inr ⟨rfl, w', hw', ?_⟩⟩
          rw [hd, Cursor.rest_of_head? h, hcomma, hd']
      · trivial

theorem ends_closeObject :
    Ends closeObject c (fun _ d => ∃ w, Blanks w ∧ c.rest = w ++ Byte.closeBrace :: d.rest)
      fun _ => True := by
  unfold closeObject
  rw [ends_bind]
  refine ends_ahead?_intro fun w d hw hd _ => ?_
  split
  · trivial
  · next h => exact ⟨w, hw, by rw [hd, Cursor.rest_of_head? h]; rfl⟩
  · trivial
  · trivial

theorem ends_closeList :
    Ends closeList c (fun _ d => ∃ w, Blanks w ∧ c.rest = w ++ Byte.closeBracket :: d.rest)
      fun _ => True := by
  unfold closeList
  rw [ends_bind]
  refine ends_ahead?_intro fun w d hw hd _ => ?_
  split
  · trivial
  · next h => exact ⟨w, hw, by rw [hd, Cursor.rest_of_head? h]; rfl⟩
  · rw [ends_bind, ends_skip, ends_bind, ends_ahead?]
    split <;> trivial
  · trivial

/-! ## Members -/

/-- What became of a field while members were read: none of them had its key, or one had, the field
was still open, and the text of the member's value is what the field got. -/
def Took (spells : α → List UInt8 → Prop) (key : String) (ms : List (String × List UInt8))
    (before after : Option α) : Prop :=
  (textsOf key ms = [] ∧ after = before) ∨
    (before = none ∧ ∃ a v, textsOf key ms = [v] ∧ spells a v ∧ after = some a)

section Took

variable {spells : α → List UInt8 → Prop} {key k : String} {v : List UInt8}
  {ms : List (String × List UInt8)} {before after : Option α}

theorem Took.nil : Took spells key [] before before :=
  .inl ⟨rfl, rfl⟩

theorem Took.other (hk : k ≠ key) (h : Took spells key ms before after) :
    Took spells key ((k, v) :: ms) before after := by
  unfold Took
  rw [textsOf_cons_of_ne hk]
  exact h

theorem Took.self {a : α} (hv : spells a v) (h : Took spells key ms (some a) after) :
    Took spells key ((key, v) :: ms) none after := by
  rcases h with ⟨htexts, rfl⟩ | ⟨hnone, -⟩
  · exact .inr ⟨rfl, a, v, by rw [textsOf_cons_self, htexts], hv, rfl⟩
  · cases hnone

/-- A field that was open and is not any more got its value from the one member with its key. -/
theorem Took.of_some {a : α} (h : Took spells key ms none (some a)) :
    ∃ v, textsOf key ms = [v] ∧ spells a v := by
  rcases h with ⟨-, hnone⟩ | ⟨-, b, v, htexts, hv, hsome⟩
  · cases hnone
  · cases hsome
    exact ⟨v, htexts, hv⟩

theorem Took.of_none (h : Took spells key ms none none) : textsOf key ms = [] := by
  rcases h with ⟨htexts, -⟩ | ⟨-, b, v, -, -, hsome⟩
  · exact htexts
  · cases hsome

end Took

theorem ends_field {name : String} {seen : Option α} {item : Reader α}
    {spells : α → List UInt8 → Prop}
    (hitem : ∀ d, Ends item d
      (fun a e => ∃ w v, Blanks w ∧ spells a v ∧ d.rest = w ++ (v ++ e.rest)) fun _ => True) :
    Ends (field name seen item) c
      (fun o d => seen = none ∧ ∃ a w w' v, o = some a ∧ Blanks w ∧ Blanks w' ∧ spells a v ∧
        c.rest = w ++ Byte.colon :: (w' ++ (v ++ d.rest)))
      fun _ => True := by
  unfold field
  split
  · trivial
  · apply Ends.bind ends_colon
    rintro _ d ⟨w, hw, hd⟩
    apply Ends.bind (hitem d)
    rintro a e ⟨w', v, hw', hv, he⟩
    exact ⟨rfl, a, w, w', v, rfl, hw, hw', hv, by rw [hd, he]⟩

theorem ends_otherMember {σ : Type} {s : σ} :
    Ends (otherMember s) c
      (fun s' d => s' = s ∧ ∃ w w' v, Blanks w ∧ Blanks w' ∧ Spells .value v ∧
        c.rest = w ++ Byte.colon :: (w' ++ (v ++ d.rest)))
      fun _ => True := by
  unfold otherMember
  apply Ends.bind ends_colon
  rintro _ d ⟨w, hw, hd⟩
  apply Ends.bind ends_skipValue
  rintro _ e ⟨w', v, hw', hv, he⟩
  exact ⟨rfl, w, w', v, hw, hw', hv, by rw [hd, he]⟩

section Members

variable {σ : Type} {member : String → σ → Reader σ}
  {reads : List (String × List UInt8) → σ → σ → Prop}

/-- What the reader of a member does: it takes a colon and a value, and if the members behind it
move the state on, then so do they with this one before them. -/
def MemberLaw (reads : List (String × List UInt8) → σ → σ → Prop)
    (member : String → σ → Reader σ) : Prop :=
  ∀ k s c, Ends (member k s) c
    (fun s' d => ∃ w w' v, Blanks w ∧ Blanks w' ∧ Spells .value v ∧
      c.rest = w ++ Byte.colon :: (w' ++ (v ++ d.rest)) ∧
      ∀ ms s'', reads ms s' s'' → reads ((k, v) :: ms) s s'')
    fun _ => True

variable (hnil : ∀ s, reads [] s s) (hmember : MemberLaw reads member)

include hmember in
/-- A member and those behind it, up to the brace that closes the object. -/
theorem ends_keyed {n : Nat} {s : σ} (h : c.rest.head? = some Byte.quote)
    (htrail : ∀ s c, Ends (membersUpTo member n false s) c
      (fun s' d => ∀ w r, Blanks w → d.rest = w ++ Byte.closeBrace :: r →
        ∃ ms t, Trail ms t ∧ c.rest = t ++ r ∧ reads ms s s')
      fun _ => True) :
    Ends (key >>= fun k => member k s >>= fun s => membersUpTo member n false s) c
      (fun s' d => ∀ w r, Blanks w → d.rest = w ++ Byte.closeBrace :: r →
        ∃ k v m ms t, Member k v m ∧ Trail ms t ∧ c.rest = m ++ (t ++ r) ∧
          reads ((k, v) :: ms) s s')
      fun _ => True := by
  apply Ends.bind (ends_quoted h)
  rintro k d ⟨q, hq, hd⟩
  apply Ends.bind (hmember k s d)
  rintro s1 d1 ⟨w1, w2, v, hw1, hw2, hv, hd1, hreads⟩
  apply (htrail s1 d1).imp
  intro s' e he w r hw hr
  obtain ⟨ms, t, ht, heq, hms⟩ := he w r hw hr
  refine ⟨k, v, _, ms, t, ⟨q, w1, w2, rfl, hq, hw1, hw2, hv⟩, ht, ?_, hreads ms s' hms⟩
  rw [hd, hd1, heq]
  simp only [List.append_assoc, List.cons_append]

include hnil hmember

theorem ends_membersUpTo (n : Nat) (s : σ) :
    Ends (membersUpTo member n false s) c
      (fun s' d => ∀ w r, Blanks w → d.rest = w ++ Byte.closeBrace :: r →
        ∃ ms t, Trail ms t ∧ c.rest = t ++ r ∧ reads ms s s')
      fun _ => True := by
  induction n generalizing s c with
  | zero =>
    intro w r hw hr
    exact ⟨[], _, .close hw, by rw [hr, List.append_assoc]; rfl, hnil s⟩
  | succ n ih =>
    rw [membersUpTo]
    apply Ends.bind ends_hasKey
    rintro b d ⟨w, hw, ⟨rfl, hd, -⟩ | ⟨rfl, hquote, w', hw', hd⟩⟩
    · rw [if_neg Bool.false_ne_true]
      intro w1 r hw1 hr
      refine ⟨[], _, .close (hw.append hw1), ?_, hnil s⟩
      rw [hd, hr]
      simp only [List.append_assoc, List.cons_append, List.nil_append]
    · rw [if_pos rfl]
      apply (ends_keyed hmember hquote fun s c => ih s).imp
      intro s' e he w1 r hw1 hr
      obtain ⟨k, v, m, ms, t, hm, ht, heq, hreads⟩ := he w1 r hw1 hr
      refine ⟨_, _, .more hw hw' hm ht, ?_, hreads⟩
      rw [hd, heq]
      simp only [List.append_assoc, List.cons_append]

/-- Members that were read up to the brace are the members of the object. -/
theorem ends_members (s : σ) :
    Ends (members member s) c
      (fun s' d => ∀ w r, Blanks w → d.rest = w ++ Byte.closeBrace :: r →
        ∃ ms t, Members ms (Byte.openBrace :: t) ∧ c.rest = t ++ r ∧ reads ms s s')
      fun _ => True := by
  unfold members
  rw [ends_bind, ends_get, membersUpTo]
  apply Ends.bind ends_hasKey
  rintro b d ⟨w, hw, ⟨rfl, hd, -⟩ | ⟨rfl, hquote, hd⟩⟩
  · rw [if_neg Bool.false_ne_true]
    intro w1 r hw1 hr
    refine ⟨[], _, .none (hw.append hw1), ?_, hnil s⟩
    rw [hd, hr]
    simp only [List.append_assoc, List.cons_append, List.nil_append]
  · rw [if_pos rfl]
    refine (ends_keyed hmember hquote fun s c =>
      ends_membersUpTo hnil hmember _ s).imp ?_
    intro s' e he w1 r hw1 hr
    obtain ⟨k, v, m, ms, t, hm, ht, heq, hreads⟩ := he w1 r hw1 hr
    refine ⟨_, _, .some hw hm ht, ?_, hreads⟩
    rw [hd, heq]
    simp only [List.append_assoc]

end Members

/-! ## Records -/

/-- A record is read from a list or from an object, behind its bracket and up to its end. -/
theorem ends_record {room : Nat} {name : String} {fromMembers fromItems : Reader α}
    {good : α → Cursor → Prop}
    (hlist : ∀ w d, Blanks w → c.rest = w ++ Byte.openBracket :: d.rest →
      Ends fromItems d (fun a e => Ends closeList e (fun _ e => good a e) fun _ => True)
        fun _ => True)
    (hobject : ∀ w d, Blanks w → c.rest = w ++ Byte.openBrace :: d.rest →
      Ends fromMembers d (fun a e => Ends closeObject e (fun _ e => good a e) fun _ => True)
        fun _ => True) :
    Ends (record room name fromMembers fromItems) c good fun _ => True := by
  unfold record
  rw [ends_placed, ends_bind]
  refine ends_ahead?_intro fun w d hw hd _ => ?_
  split
  · trivial
  · next h =>
    split
    · trivial
    · rw [ends_bind, ends_skip]
      unfold list
      rw [ends_enclosed]
      refine (hlist w _ hw (by rw [hd, Cursor.rest_of_head? h]; rfl)).mono (fun _ _ h => h) ?_
      exact fun _ _ => ends_trivial _
  · next h =>
    split
    · trivial
    · rw [ends_bind, ends_skip]
      unfold object
      rw [ends_enclosed]
      refine (hobject w _ hw (by rw [hd, Cursor.rest_of_head? h]; rfl)).mono (fun _ _ h => h) ?_
      exact fun _ _ => ends_trivial _
  · exact ends_mismatch

/-! ## Lists of fixed length -/

/-- A comma with blanks around it. -/
def Comma (u : List UInt8) : Prop :=
  ∃ w w', u = w ++ Byte.comma :: w' ∧ Blanks w ∧ Blanks w'

theorem Comma.head?_ne {u t : List UInt8} (hu : Comma u) :
    (u ++ t).head? ≠ some Byte.closeBracket := by
  obtain ⟨w, w', rfl, hw, -⟩ := hu
  cases w with
  | nil =>
    intro h
    cases h
  | cons b w =>
    intro h
    cases h
    have hb := hw _ List.mem_cons_self
    cases hb

theorem Comma.ended {u : List UInt8} (hu : Comma u) (t : List UInt8) : Ended (u ++ t) := by
  obtain ⟨w, w', rfl, hw, -⟩ := hu
  rw [List.append_assoc]
  exact ended_append hw (.inl rfl)

/-- The text of an item in front of what is left: the first one stands behind blanks, any other one
behind a comma. -/
def ItemAhead (index : Nat) (v rest left : List UInt8) : Prop :=
  if index = 0 then ∃ w, Blanks w ∧ rest = w ++ (v ++ left)
  else ∃ u, Comma u ∧ rest = u ++ (v ++ left)

section Items

variable {index : Nat} {item : Reader α} {spells : α → List UInt8 → Prop}
  (hitem : ∀ d, Ends item d
    (fun a e => ∃ w v, Blanks w ∧ spells a v ∧ d.rest = w ++ (v ++ e.rest)) fun _ => True)

include hitem

theorem ends_itemAt? :
    Ends (itemAt? index item) c
      (fun o d => (o = none ∧ d.rest.head? = some Byte.closeBracket) ∨
        ∃ a v, o = some a ∧ spells a v ∧ ItemAhead index v c.rest d.rest)
      fun _ => True := by
  unfold itemAt?
  apply Ends.bind ends_hasItem
  rintro b d ⟨w, hw, ⟨rfl, hd, hclose⟩ | ⟨rfl, hd⟩⟩
  · rw [if_neg Bool.false_ne_true]
    exact .inl ⟨rfl, hclose⟩
  · rw [if_pos rfl]
    apply Ends.bind (hitem d)
    rintro a e ⟨w', v, hw', hv, he⟩
    refine .inr ⟨a, v, rfl, hv, ?_⟩
    unfold ItemAhead
    by_cases hindex : index = 0
    · subst hindex
      rw [if_pos (by rfl)] at hd
      rw [if_pos rfl]
      exact ⟨w ++ w', hw.append hw', by rw [hd, he, List.append_assoc]⟩
    · rw [if_neg (by simpa using hindex)] at hd
      obtain ⟨w1, hw1, hd⟩ := hd
      rw [if_neg hindex]
      refine ⟨_, ⟨w, w1 ++ w', rfl, hw, hw1.append hw'⟩, ?_⟩
      rw [hd, he]
      simp only [List.append_assoc, List.cons_append]

theorem ends_itemAt {whole : String} :
    Ends (itemAt whole index item) c
      (fun a d => ∃ v, spells a v ∧ ItemAhead index v c.rest d.rest) fun _ => True := by
  unfold itemAt
  apply Ends.bind (ends_itemAt? hitem)
  rintro o d (⟨rfl, -⟩ | ⟨a, v, rfl, hv, hahead⟩)
  · trivial
  · exact ⟨v, hv, hahead⟩

end Items

/-! ## Optional values and lists -/

section Optional

variable {room : Nat} {item : Reader α}
  (hitem : ∀ d, Ends item d
    (fun _ e => ∃ w v, Blanks w ∧ Spells .value v ∧ d.rest = w ++ (v ++ e.rest)) fun _ => True)

include hitem

theorem ends_optional :
    Ends (optional item) c
      (fun _ d => ∃ w v, Blanks w ∧ Spells .value v ∧ c.rest = w ++ (v ++ d.rest))
      fun _ => True := by
  unfold optional
  rw [ends_bind]
  refine ends_ahead?_intro fun w d hw hd _ => ?_
  split
  · next h =>
    rw [ends_bind, ends_skip]
    apply Ends.bind (ends_word _)
    intro _ e he
    exact ⟨w, _, hw, .null, by rw [hd, Cursor.rest_of_head? h, he]; rfl⟩
  · apply Ends.bind (hitem d)
    rintro a e ⟨w', v, hw', hv, he⟩
    exact ⟨w ++ w', v, hw.append hw', hv, by rw [hd, he, List.append_assoc]⟩

theorem ends_itemsUpTo (n : Nat) :
    Ends (itemsUpTo item n false) c
      (fun _ d => ∀ w r, Blanks w → d.rest = w ++ Byte.closeBracket :: r →
        ∃ u, Spells .items u ∧ c.rest = u ++ r)
      fun _ => True := by
  induction n generalizing c with
  | zero =>
    intro w r hw hr
    exact ⟨_, .closeList hw, by rw [hr, List.append_assoc]; rfl⟩
  | succ n ih =>
    rw [itemsUpTo]
    apply Ends.bind ends_hasItem
    rintro b d ⟨w, hw, ⟨rfl, hd, -⟩ | ⟨rfl, w', hw', hd⟩⟩
    · rw [if_neg Bool.false_ne_true]
      intro w1 r hw1 hr
      refine ⟨_, .closeList (hw.append hw1), ?_⟩
      rw [hd, hr]
      simp only [List.append_assoc, List.cons_append, List.nil_append]
    · rw [if_pos rfl]
      apply Ends.bind (hitem d)
      rintro a e ⟨w2, v, hw2, hv, he⟩
      apply Ends.bind ih
      intro _ e' he' w1 r hw1 hr
      obtain ⟨u, hu, heq⟩ := he' w1 r hw1 hr
      refine ⟨_, .item hw (hw'.append hw2) hv hu, ?_⟩
      rw [hd, he, heq]
      simp only [List.append_assoc, List.cons_append]

theorem ends_listOf :
    Ends (listOf room item) c
      (fun _ d => ∃ w v, Blanks w ∧ Spells .value v ∧ c.rest = w ++ (v ++ d.rest))
      fun _ => True := by
  unfold listOf
  rw [ends_placed, ends_bind]
  refine ends_ahead?_intro fun w d hw hd _ => ?_
  split
  · trivial
  · next h =>
    split
    · trivial
    · rw [ends_bind, ends_skip]
      unfold list
      rw [ends_enclosed]
      have hitems : Ends (items item) d.step
          (fun _ e => ∀ w r, Blanks w → e.rest = w ++ Byte.closeBracket :: r →
            ∃ v, Spells .value (Byte.openBracket :: v) ∧ d.step.rest = v ++ r)
          fun _ => True := by
        unfold items
        rw [ends_bind, ends_get, itemsUpTo]
        apply Ends.bind ends_hasItem
        rintro b e ⟨w', hw', ⟨rfl, he, -⟩ | ⟨rfl, he⟩⟩
        · rw [if_neg Bool.false_ne_true]
          intro w1 r hw1 hr
          refine ⟨_, .noItems (hw'.append hw1), ?_⟩
          rw [he, hr]
          simp only [List.append_assoc, List.cons_append, List.nil_append]
        · rw [if_pos rfl]
          apply Ends.bind (hitem e)
          rintro a e' ⟨w2, v, hw2, hv, he'⟩
          apply Ends.bind (ends_itemsUpTo hitem _)
          intro _ e'' he'' w1 r hw1 hr
          obtain ⟨u, hu, heq⟩ := he'' w1 r hw1 hr
          rw [if_pos rfl] at he
          refine ⟨_, .list (hw'.append hw2) hv hu, ?_⟩
          rw [he, he', heq]
          simp only [List.append_assoc]
      refine hitems.mono ?_ fun _ _ => ends_trivial _
      intro _ e he
      apply ends_closeList.imp
      rintro _ e' ⟨w', hw', he'⟩
      obtain ⟨v, hv, heq⟩ := he w' _ hw' he'
      exact ⟨w, _, hw, hv, by rw [hd, Cursor.rest_of_head? h, heq]; rfl⟩
  · exact ends_mismatch

end Optional

end Gatehouse.Json.Reader
