import Gatehouse.Proofs.Text.AsciiCase
import Gatehouse.Proofs.Text.Utf8
import Mathlib.Data.List.Infix

/-!
# Spellings of ASCII words

Seen from ASCII, the case table is small. Upper and lower case treat an ASCII character as the ASCII
case maps do, and of the characters beyond ASCII only a few become ASCII (`Strays`): upper case has
the sharp s, the dotless i, the long s and seven ligatures, lower case the Kelvin sign
(`raisesAscii`, `lowersAscii`). Every other one leaves at least one character beyond ASCII. So what
a case map turns into an ASCII word are the spellings of the word: its letters in either case, with
a stray wherever the word has the letters that the stray stands for
(`FoldsAscii.flatMap_eq_iff`). Where the word has the letters of no stray, that is the word up to
the case of its letters (`spells_iff_sameLetter`).
-/

namespace Gatehouse.Text

/-! ## Case maps seen from ASCII -/

/-- Characters beyond ASCII with the ASCII characters that a case map makes of them. -/
abbrev Strays :=
  List (Char × List Char)

/-- The strays of upper case. -/
def raisedStrays : Strays :=
  [('\u00DF', ['S', 'S']), ('\u0131', ['I']), ('\u017F', ['S']), ('\uFB00', ['F', 'F']),
    ('\uFB01', ['F', 'I']), ('\uFB02', ['F', 'L']), ('\uFB03', ['F', 'F', 'I']),
    ('\uFB04', ['F', 'F', 'L']), ('\uFB05', ['S', 'T']), ('\uFB06', ['S', 'T'])]

/-- The strays of lower case. -/
def loweredStrays : Strays :=
  [('\u212A', ['k'])]

/-- A case map treats ASCII characters as an ASCII case map does, and leaves of a character beyond
ASCII at least one such character, unless it is a stray. -/
structure FoldsAscii (f : Char → List Char) (fold : Char → Char) (strays : Strays) : Prop where
  ascii {c : Char} (hc : c.toNat < 0x80) : f c = [fold c]
  same {c d : Char} (hc : c.toNat < 0x80) (hd : d.toNat < 0x80) : fold c = fold d ↔ SameLetter c d
  stray {c : Char} {letters : List Char} (h : (c, letters) ∈ strays) : f c = letters
  beyond {c : Char} (hc : 0x80 ≤ c.toNat) : (c, f c) ∈ strays ∨ ∃ d ∈ f c, 0x80 ≤ d.toNat

theorem forall_ascii (P : Char → Prop) (h : ∀ n : Fin 0x80, P (Char.ofNat n)) {c : Char}
    (hc : c.toNat < 0x80) : P c := by
  have hn := h ⟨c.toNat, hc⟩
  rwa [Char.ofNat_toNat] at hn

/-- A character under a case map has several images, stands in one of the runs, or stays. -/
theorem Case.map_cases (special : List (Nat × List Nat)) (runs : List Case.Run) (c : Char) :
    (∃ images, (c.toNat, images) ∈ special ∧ Case.map special runs c = images.map Char.ofNat) ∨
    (∃ r ∈ runs, ∃ image, r.image? c.toNat = some image ∧
      Case.map special runs c = [Char.ofNat image]) ∨
    Case.map special runs c = [c] := by
  unfold Case.map
  split
  · next images hlookup =>
    obtain ⟨l₁, l₂, hspecial, -⟩ := List.lookup_eq_some_iff.mp hlookup
    exact .inl ⟨images, by simp [hspecial], rfl⟩
  · split
    · next image himage =>
      obtain ⟨r, hr, hrun⟩ := List.exists_of_findSome?_eq_some himage
      exact .inr (.inl ⟨r, hr, image, hrun, rfl⟩)
    · exact .inr (.inr rfl)

/-- Where the tables hold no ASCII character but in their first run, that run alone counts for
ASCII. -/
theorem Case.map_of_ascii {special : List (Nat × List Nat)} {letters : Case.Run}
    {rest : List Case.Run} (hspecial : ∀ e ∈ special, 0x80 ≤ e.1)
    (hrest : ∀ r ∈ rest, 0x80 ≤ r.first) {c : Char} (hc : c.toNat < 0x80) :
    Case.map special (letters :: rest) c = Case.map [] [letters] c := by
  have hlookup : special.lookup c.toNat = none := by
    rw [List.lookup_eq_none_iff]
    intro e he
    have := hspecial e he
    rw [bne_iff_ne]
    omega
  have hruns : rest.findSome? (·.image? c.toNat) = none := by
    rw [List.findSome?_eq_none_iff]
    intro r hr
    have := hrest r hr
    unfold Case.Run.image?
    rw [if_neg]
    omega
  simp only [Case.map, hlookup, List.lookup_nil, List.findSome?_cons, hruns, List.findSome?_nil]

/-- A run holds ASCII characters, or one stray, or its images are all beyond ASCII. -/
def Case.Run.Apart (strays : Strays) (r : Case.Run) : Prop :=
  r.last < 0x80 ∨
    (r.first = r.last ∧ (Char.ofNat r.first, [Char.ofNat r.image]) ∈ strays) ∨
    (0x80 ≤ r.image ∧ r.image + (r.last - r.first) < 0xD800) ∨
    (0xDFFF < r.image ∧ r.image + (r.last - r.first) < 0x110000)

instance (strays : Strays) (r : Case.Run) : Decidable (r.Apart strays) :=
  inferInstanceAs (Decidable (_ ∨ _))

theorem Case.Run.Apart.beyond {strays : Strays} {r : Case.Run} (hr : r.Apart strays) {c : Char}
    (hc : 0x80 ≤ c.toNat) {image : Nat} (h : r.image? c.toNat = some image) :
    (c, [Char.ofNat image]) ∈ strays ∨ 0x80 ≤ (Char.ofNat image).toNat := by
  unfold Case.Run.image? at h
  split at h
  · next hin =>
    obtain ⟨hfirst, hlast, -⟩ := hin
    obtain rfl := Option.some.inj h
    rcases hr with hlow | ⟨hone, hmem⟩ | ⟨hlow, hhigh⟩ | ⟨hlow, hhigh⟩
    · omega
    · have hchar : c.toNat = r.first := by omega
      have hc : Char.ofNat r.first = c := by rw [← hchar, Char.ofNat_toNat]
      rw [hc] at hmem
      rw [hchar, Nat.sub_self, Nat.add_zero]
      exact .inl hmem
    · have hvalue : (Char.ofNat (r.image + (c.toNat - r.first))).toNat = _ :=
        Utf8.toNat_ofNat (.inl (by omega))
      exact .inr (by omega)
    · have hvalue : (Char.ofNat (r.image + (c.toNat - r.first))).toNat = _ :=
        Utf8.toNat_ofNat (.inr (by omega))
      exact .inr (by omega)
  · cases h

/-- What has to be seen of each entry of a table. -/
theorem Case.beyond_map {special : List (Nat × List Nat)} {runs : List Case.Run} {strays : Strays}
    (hspecial : ∀ e ∈ special, (Char.ofNat e.1, e.2.map Char.ofNat) ∈ strays ∨
      ∃ n ∈ e.2, 0x80 ≤ (Char.ofNat n).toNat)
    (hruns : ∀ r ∈ runs, r.Apart strays) {c : Char} (hc : 0x80 ≤ c.toNat) :
    (c, Case.map special runs c) ∈ strays ∨ ∃ d ∈ Case.map special runs c, 0x80 ≤ d.toNat := by
  obtain ⟨images, hmem, hmap⟩ | ⟨r, hr, image, himage, hmap⟩ | hmap := Case.map_cases special runs c
  · rw [hmap]
    rcases hspecial _ hmem with hstray | ⟨n, hn, hbeyond⟩
    · rw [Char.ofNat_toNat] at hstray
      exact .inl hstray
    · exact .inr ⟨_, List.mem_map_of_mem hn, hbeyond⟩
  · rw [hmap]
    exact ((hruns r hr).beyond hc himage).imp_right fun h => ⟨_, List.mem_singleton_self _, h⟩
  · rw [hmap]
    exact .inr ⟨c, List.mem_singleton_self c, hc⟩

theorem raisesAscii : FoldsAscii upperChar Char.toUpper raisedStrays where
  ascii hc := by
    rw [upperChar, Case.raisedRuns, Case.map_of_ascii (by decide +kernel) (by decide +kernel) hc]
    exact forall_ascii (fun c => Case.map [] [⟨0x61, 0x7A, 1, 0x41⟩] c = [c.toUpper])
      (by decide +kernel) hc
  same {c d} hc hd := by
    have hcaps {c : Char} : c.toNat < 0x80 →
        c.toUpper.toLower = c.toLower ∧ c.toLower.toUpper = c.toUpper :=
      forall_ascii (fun c => c.toUpper.toLower = c.toLower ∧ c.toLower.toUpper = c.toUpper)
        (by decide +kernel)
    rw [← toLower_eq_iff]
    constructor
    · intro h
      rw [← (hcaps hc).1, h, (hcaps hd).1]
    · intro h
      rw [← (hcaps hc).2, h, (hcaps hd).2]
  stray {c letters} h := by
    have hall : ∀ e ∈ raisedStrays, upperChar e.1 = e.2 := by decide +kernel
    exact hall _ h
  beyond := Case.beyond_map (by decide +kernel) (by decide +kernel)

theorem lowersAscii : FoldsAscii lowerChar Char.toLower loweredStrays where
  ascii hc := by
    rw [lowerChar, Case.loweredRuns, Case.map_of_ascii (by decide +kernel) (by decide +kernel) hc]
    exact forall_ascii (fun c => Case.map [] [⟨0x41, 0x5A, 1, 0x61⟩] c = [c.toLower])
      (by decide +kernel) hc
  same _ _ := toLower_eq_iff
  stray {c letters} h := by
    have hall : ∀ e ∈ loweredStrays, lowerChar e.1 = e.2 := by decide +kernel
    exact hall _ h
  beyond := Case.beyond_map (by decide +kernel) (by decide +kernel)

/-! ## Spellings -/

/-- The characters are all ASCII. -/
def IsAscii (cs : List Char) : Prop :=
  ∀ c ∈ cs, c.toNat < 0x80

-- The instance is named, since a search may as well find the one that tries every character.
instance (cs : List Char) : Decidable (IsAscii cs) :=
  List.decidableBAll _ cs

/-- A word in ASCII that an ASCII case map leaves as it is. -/
def Settled (fold : Char → Char) (word : List Char) : Prop :=
  ∀ d ∈ word, d.toNat < 0x80 ∧ fold d = d

instance (fold : Char → Char) (word : List Char) : Decidable (Settled fold word) :=
  List.decidableBAll _ word

/-- The characters that spell a word: each letter in either case, or a stray for the letters that it
stands for. -/
inductive Spells (strays : Strays) : List Char → List Char → Prop
  | nil : Spells strays [] []
  | letter {c d : Char} {cs ds : List Char} (h : SameLetter c d) (rest : Spells strays cs ds) :
    Spells strays (c :: cs) (d :: ds)
  | stray {c : Char} {letters cs ds : List Char} (h : (c, letters) ∈ strays)
    (rest : Spells strays cs ds) : Spells strays (c :: cs) (letters ++ ds)

theorem SameLetter.ascii {c d : Char} (h : SameLetter c d) (hd : d.toNat < 0x80) :
    c.toNat < 0x80 := by
  rcases h with _ | ⟨hc, -⟩ | ⟨⟨-, hhigh⟩, hc⟩
  · exact hd
  · have := hc.2
    omega
  · omega

/-- What a case map turns into an ASCII word in its case are the spellings of the word. -/
theorem FoldsAscii.flatMap_eq_iff {f : Char → List Char} {fold : Char → Char} {strays : Strays}
    (hf : FoldsAscii f fold strays) {cs ds : List Char} (hds : Settled fold ds) :
    cs.flatMap f = ds ↔ Spells strays cs ds := by
  constructor
  · intro h
    induction cs generalizing ds with
    | nil =>
      obtain rfl := h
      exact .nil
    | cons c cs ih =>
      rw [List.flatMap_cons] at h
      subst h
      have hrest : Spells strays cs (cs.flatMap f) :=
        ih (fun d hd => hds d (List.mem_append_right _ hd)) rfl
      rcases Nat.lt_or_ge c.toNat 0x80 with hc | hc
      · rw [hf.ascii hc] at hds ⊢
        obtain ⟨⟨hd, hfold⟩, -⟩ := List.forall_mem_cons.mp hds
        exact .letter ((hf.same hc hd).mp hfold.symm) hrest
      · rcases hf.beyond hc with hstray | ⟨d, hd, hbeyond⟩
        · exact .stray hstray hrest
        · have := (hds d (List.mem_append_left _ hd)).1
          omega
  · intro h
    induction h with
    | nil => rfl
    | @letter c d cs ds hletter _ ih =>
      obtain ⟨⟨hd, hfold⟩, hds⟩ := List.forall_mem_cons.mp hds
      have hc := hletter.ascii hd
      rw [List.flatMap_cons, ih hds, hf.ascii hc, (hf.same hc hd).mpr hletter, hfold]
      rfl
    | stray hstray _ ih =>
      rw [List.flatMap_cons, ih fun d hd => hds d (List.mem_append_right _ hd), hf.stray hstray]

theorem upper_eq_iff_spells {s word : String}
    (hword : Settled Char.toUpper word.toList) :
    upper s = word ↔ Spells raisedStrays s.toList word.toList := by
  rw [← raisesAscii.flatMap_eq_iff hword, upper, ← String.toList_inj, String.toList_ofList]

theorem lower_eq_iff_spells {s word : String}
    (hword : Settled Char.toLower word.toList) :
    lower s = word ↔ Spells loweredStrays s.toList word.toList := by
  rw [← lowersAscii.flatMap_eq_iff hword, lower, ← String.toList_inj, String.toList_ofList]

/-- A word up to case is a spelling of it. -/
theorem spells_of_sameLetter {strays : Strays} {cs ds : List Char}
    (h : List.Forall₂ SameLetter cs ds) : Spells strays cs ds := by
  induction h with
  | nil => exact .nil
  | cons hletter _ ih => exact .letter hletter ih

/-- Without a stray that stands for letters of the word, there are no other spellings. -/
theorem spells_iff_sameLetter {strays : Strays} {cs ds : List Char}
    (h : ∀ e ∈ strays, e.1 ∈ cs → ¬ e.2 <:+: ds) :
    Spells strays cs ds ↔ List.Forall₂ SameLetter cs ds := by
  refine ⟨fun hspells => ?_, spells_of_sameLetter⟩
  induction hspells with
  | nil => exact .nil
  | letter hletter _ ih =>
    refine .cons hletter (ih fun e he hmem hpart => ?_)
    exact h e he (List.mem_cons_of_mem _ hmem) (hpart.trans (List.infix_cons List.infix_rfl))
  | @stray c letters cs ds hstray _ _ =>
    exact absurd (List.prefix_append letters ds).isInfix (h _ hstray List.mem_cons_self)

/-- Among texts in ASCII the spellings in capitals are the word up to case. -/
theorem upper_eq_iff_of_ascii {s word : String}
    (hword : Settled Char.toUpper word.toList) (hs : IsAscii s.toList) :
    upper s = word ↔ SameLetters s word := by
  rw [upper_eq_iff_spells hword, SameLetters]
  refine spells_iff_sameLetter fun e he hmem => ?_
  have hstrays : ∀ e ∈ raisedStrays, 0x80 ≤ e.1.toNat := by decide
  have := hstrays e he
  have := hs _ hmem
  omega

/-- What spells a word begins with its first letter in either case or with a stray. -/
theorem spells_cons_iff {strays : Strays} {cs ds : List Char} {d : Char} :
    Spells strays cs (d :: ds) ↔ ∃ c cs', cs = c :: cs' ∧
      ((SameLetter c d ∧ Spells strays cs' ds) ∨ ∃ letters ds', (c, letters) ∈ strays ∧
        letters ++ ds' = d :: ds ∧ Spells strays cs' ds') := by
  constructor
  · generalize hword : d :: ds = word
    intro h
    cases h with
    | nil => cases hword
    | letter hletter hrest =>
      obtain ⟨rfl, rfl⟩ := List.cons.inj hword
      exact ⟨_, _, rfl, .inl ⟨hletter, hrest⟩⟩
    | stray hstray hrest => exact ⟨_, _, rfl, .inr ⟨_, _, hstray, hword ▸ rfl, hrest⟩⟩
  · rintro ⟨c, cs', rfl, ⟨hletter, hrest⟩ | ⟨letters, ds', hstray, hword, hrest⟩⟩
    · exact .letter hletter hrest
    · rw [← hword]
      exact .stray hstray hrest

/-- A capital with which the letters of no stray begin is spelled by itself and its small letter. -/
theorem spells_cons_iff_of_capital {strays : Strays} {cs ds : List Char} {d : Char}
    (hd : IsCapital d) (h : ∀ e ∈ strays, e.2.head?.any (· ≠ d)) :
    Spells strays cs (d :: ds) ↔
      ∃ c cs', cs = c :: cs' ∧ c ∈ [d.toLower, d] ∧ Spells strays cs' ds := by
  rw [spells_cons_iff]
  refine exists_congr fun c => exists_congr fun cs' => and_congr_right fun _ => ?_
  rw [sameLetter_iff_of_capital hd, List.mem_pair, or_comm (a := c = d)]
  refine or_iff_left ?_
  rintro ⟨letters, ds', hstray, hword, -⟩
  have hhead := h _ hstray
  cases letters with
  | nil => simp at hhead
  | cons x letters =>
    obtain ⟨rfl, -⟩ := List.cons.inj hword
    simp at hhead

theorem spells_nil_iff {strays : Strays} {cs : List Char} (h : ∀ e ∈ strays, e.2 ≠ []) :
    Spells strays cs [] ↔ cs = [] := by
  constructor
  · generalize hword : [] = word
    intro hspells
    cases hspells with
    | nil => rfl
    | letter => cases hword
    | stray hstray => exact absurd (List.append_eq_nil_iff.mp hword.symm).1 (h _ hstray)
  · rintro rfl
    exact .nil

/-! ## The final sigma -/

/-- A text in lower case where the form of a sigma may depend on its place: any capital sigma may
have become the final one, and every other character is what `lowerChar` makes of it. -/
inductive Lowered : List Char → List Char → Prop
  | nil : Lowered [] []
  | char (c : Char) {cs ds : List Char} (rest : Lowered cs ds) :
    Lowered (c :: cs) (lowerChar c ++ ds)
  | finalSigma {cs ds : List Char} (rest : Lowered cs ds) :
    Lowered ('\u03A3' :: cs) ('\u03C2' :: ds)

/-- Which form a sigma takes makes no difference to whether a text becomes an ASCII word. -/
theorem Lowered.eq_iff {cs ds word : List Char} (h : Lowered cs ds)
    (hword : IsAscii word) : ds = word ↔ cs.flatMap lowerChar = word := by
  induction h generalizing word with
  | nil => rfl
  | char c _ ih =>
    rw [List.flatMap_cons]
    constructor
    · rintro rfl
      rw [(ih fun d hd => hword d (List.mem_append_right _ hd)).mp rfl]
    · rintro rfl
      rw [(ih fun d hd => hword d (List.mem_append_right _ hd)).mpr rfl]
  | finalSigma _ ih =>
    have hsigma : lowerChar '\u03A3' = ['\u03C3'] := by decide +kernel
    rw [List.flatMap_cons, hsigma]
    -- Neither form is ASCII.
    constructor
    · rintro rfl
      exact absurd (hword _ List.mem_cons_self) (by decide)
    · rintro rfl
      exact absurd (hword _ List.mem_cons_self) (by decide)

end Gatehouse.Text
