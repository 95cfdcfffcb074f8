import Gatehouse.Claims

/-!
# Lifetimes

The end of a lifetime is found in three steps, each with a bound of its own: the hours get a sign,
become a span, and are added to a point in time. Each step is exact or gives nothing
(`toInt_signedHours`, `Span.toInt_ofHours`, `Instant.toInt_add`), and what gives nothing ends behind
the calendar anyway. So only the last bound counts, and claims are issued with the lifetime that was
asked for or not at all (`Claims.lifetime_exact_or_refused`).
-/

namespace Gatehouse

/-! ## Points in time and spans -/

/-- The calendar starts long before 1970. -/
theorem Calendar.first_le_natCast (n : Nat) : first ≤ (n : Int) := by
  rw [first_eq]
  omega

/-- The nanoseconds that have passed up to a point in time. -/
def Instant.nanos (t : Instant) : Int :=
  1000000000 * t.second.toInt + t.nano.toNat

namespace Span

variable {hours : Int64}

theorem toInt_ofHours {s : Span} (h : ofHours? hours = some s) :
    s.seconds.toInt = 3600 * hours.toInt := by
  unfold ofHours? at h
  split at h
  · next hbounded =>
    cases h
    rw [toInt_hours hbounded, Int.mul_comm]
  · cases h

theorem ofHours_eq_none_iff :
    ofHours? hours = none ↔ 0x7FFFFFFFFFFFFFFF < 1000 * (3600 * hours.toInt).natAbs := by
  unfold ofHours?
  split <;> simp only [reduceCtorEq, false_iff, true_iff] <;> omega

end Span

namespace Instant

/-- Bounds as narrow as these leave room for the sum. -/
theorem toInt_add (t : Instant) (s : Span) :
    (t.second + s.seconds).toInt = t.second.toInt + s.seconds.toInt := by
  have hfirst := t.first_le
  have hlimit := t.lt_limit
  have hbounded := s.bounded
  rw [Calendar.first_eq] at hfirst
  rw [Calendar.limit_eq] at hlimit
  rw [Int64.toInt_add, Int.bmod_eq_of_le (by omega) (by omega)]

theorem nanos_add {t u : Instant} {s : Span} (h : t.add? s = some u) :
    u.nanos = t.nanos + 1000000000 * s.seconds.toInt := by
  unfold add? at h
  dsimp only at h
  split at h
  · cases h
    unfold nanos
    dsimp only
    rw [toInt_add, Int.mul_add]
    omega
  · cases h

theorem add_eq_none_iff {t : Instant} {s : Span} (hs : 0 ≤ s.seconds.toInt) :
    t.add? s = none ↔ Calendar.limit ≤ t.second.toInt + s.seconds.toInt := by
  have hfirst := t.first_le
  have hsum := t.toInt_add s
  rw [← hsum]
  unfold add?
  dsimp only
  split <;> simp only [reduceCtorEq, false_iff, true_iff] <;> omega

theorem div_nanos (t : Instant) : t.nanos / 1000000000 = t.second.toInt := by
  have hnano := t.nano_lt
  unfold nanos
  omega

/-- Fractions of a second do not matter for the limit, which is the start of a second. -/
theorem limit_le_nanos_iff (t : Instant) (seconds : Int) :
    1000000000 * Calendar.limit ≤ t.nanos + 1000000000 * seconds ↔
      Calendar.limit ≤ t.second.toInt + seconds := by
  have hnano := t.nano_lt
  unfold nanos
  omega

theorem second_ofSecond {second : Int} (h : Calendar.first ≤ second)
    (hlimit : second < Calendar.limit) :
    ∃ t, ofSecond? second = some t ∧ t.second = Int64.ofInt second :=
  ⟨_, dif_pos ⟨h, hlimit⟩, rfl⟩

theorem ofSecond_eq_none {second : Int} (h : Calendar.limit ≤ second) : ofSecond? second = none :=
  dif_neg fun hin => Int.not_lt.mpr h hin.2

end Instant

namespace Claims

/-! ## The end of a lifetime -/

section Expiry

variable {now : Instant} {hours : UInt64}

theorem toInt_signedHours {h : Int64} (hsigned : signedHours? hours = some h) :
    h.toInt = hours.toNat := by
  unfold signedHours? at hsigned
  split at hsigned
  · next hlt =>
    cases hsigned
    show hours.toBitVec.toInt = _
    rw [BitVec.toInt_eq_toNat_of_lt]
    · rfl
    · show 2 * hours.toNat < 2 ^ 64
      omega
  · cases hsigned

theorem signedHours_eq_none_iff :
    signedHours? hours = none ↔ 0x8000000000000000 ≤ hours.toNat := by
  unfold signedHours?
  split <;> simp only [reduceCtorEq, false_iff, true_iff] <;> omega

theorem nanos_expiry {exp : Instant} (h : expiry? now hours = some exp) :
    exp.nanos = now.nanos + 1000000000 * (3600 * hours.toNat) := by
  unfold expiry? at h
  obtain ⟨signed, hsigned, h⟩ := Option.bind_eq_some_iff.mp h
  obtain ⟨lifetime, hlifetime, h⟩ := Option.bind_eq_some_iff.mp h
  rw [Instant.nanos_add h, Span.toInt_ofHours hlifetime, toInt_signedHours hsigned]

/-- The bounds on hours and spans are wider than the calendar. -/
theorem expiry_eq_none_iff :
    expiry? now hours = none ↔
      1000000000 * Calendar.limit ≤ now.nanos + 1000000000 * (3600 * hours.toNat) := by
  rw [Instant.limit_le_nanos_iff]
  have hfirst := now.first_le
  rw [Calendar.first_eq] at hfirst
  unfold expiry?
  cases hsigned : signedHours? hours with
  | none =>
    have hmany := signedHours_eq_none_iff.mp hsigned
    rw [Calendar.limit_eq]
    exact ⟨fun _ => by omega, fun _ => rfl⟩
  | some signed =>
    have hvalue := toInt_signedHours hsigned
    show (Span.ofHours? signed).bind (fun lifetime => now.add? lifetime) = none ↔ _
    cases hlifetime : Span.ofHours? signed with
    | none =>
      have hlong := Span.ofHours_eq_none_iff.mp hlifetime
      rw [Calendar.limit_eq]
      exact ⟨fun _ => by omega, fun _ => rfl⟩
    | some lifetime =>
      have hseconds := Span.toInt_ofHours hlifetime
      show now.add? lifetime = none ↔ _
      rw [Instant.add_eq_none_iff (by omega), hseconds, hvalue]

end Expiry

/-! ## Issuing -/

section Issuing

variable {now : Instant} {sub : String} {role : Role} {hours : UInt64}

theorem issueAt_of_none (h : expiry? now hours = none) :
    issueAt now sub role hours = .error ⟨hours⟩ := by
  unfold issueAt
  rw [h]

theorem issueAt_of_some {exp : Instant} (h : expiry? now hours = some exp) :
    issueAt now sub role hours = .ok ⟨sub, role, exp.second, now.second⟩ := by
  unfold issueAt
  rw [h]

theorem issueAt_eq_ok_iff {c : Claims} :
    issueAt now sub role hours = .ok c ↔
      ∃ exp, expiry? now hours = some exp ∧ c = ⟨sub, role, exp.second, now.second⟩ := by
  cases h : expiry? now hours with
  | none => simp [issueAt_of_none h]
  | some exp => simp [issueAt_of_some h, eq_comm]

theorem issueAt_eq_error_iff {e : LifetimeOutOfRange} :
    issueAt now sub role hours = .error e ↔ expiry? now hours = none ∧ e = ⟨hours⟩ := by
  cases h : expiry? now hours with
  | none => simp [issueAt_of_none h, eq_comm]
  | some exp => simp [issueAt_of_some h]

end Issuing

/-- From the start of a second, a lifetime that ends in the calendar ends so many hours later. -/
theorem issue_eq {now : Int} (h : Calendar.first ≤ now) (sub : String) (role : Role)
    (hours : UInt64) :
    issue now sub role hours =
      if lastSecond < now + 3600 * hours.toNat then .error ⟨hours⟩
      else .ok ⟨sub, role, Int64.ofInt (now + 3600 * hours.toNat), Int64.ofInt now⟩ := by
  have hlast : lastSecond + 1 = Calendar.limit := by decide
  unfold issue
  by_cases hnow : now < Calendar.limit
  · obtain ⟨t, ht, hsecond⟩ := Instant.second_ofSecond h hnow
    have hvalue : t.second.toInt = now := by rw [hsecond, Instant.toInt_ofInt ⟨h, hnow⟩]
    rw [ht]
    dsimp only
    split
    · next hlate =>
      apply issueAt_of_none
      rw [expiry_eq_none_iff, Instant.limit_le_nanos_iff]
      omega
    · next hintime =>
      cases hexp : expiry? t hours with
      | none =>
        rw [expiry_eq_none_iff, Instant.limit_le_nanos_iff] at hexp
        omega
      | some exp =>
        have hend : exp.second.toInt = now + 3600 * hours.toNat := by
          rw [← exp.div_nanos, nanos_expiry hexp, Int.add_mul_ediv_left _ _ (by decide),
            t.div_nanos, hvalue]
        rw [issueAt_of_some hexp, hsecond, ← hend, Int64.ofInt_toInt]
  · rw [Instant.ofSecond_eq_none (Int.not_lt.mp hnow), if_pos (by omega)]

/-! ## Main statement -/

/-- Claims tell the second of their issue and are good for exactly the hours that were asked for.
They are refused with these hours exactly if so many hours from now is behind the end of the year
262142. No number on the way differs from what it stands for, and fewer hours are never refused
where more are not. -/
theorem lifetime_exact_or_refused (now : Instant) (sub : String) (role : Role) (hours : UInt64) :
    (∀ c, issueAt now sub role hours = .ok c →
      c.sub = sub ∧ c.role = role ∧ c.iat.toInt = now.nanos / 1000000000 ∧
        c.exp.toInt - c.iat.toInt = 3600 * hours.toNat) ∧
    (∀ e, issueAt now sub role hours = .error e → e = ⟨hours⟩) ∧
    ((∃ e, issueAt now sub role hours = .error e) ↔
      1000000000 * Calendar.startOfYear 262143 ≤
        now.nanos + 1000000000 * (3600 * hours.toNat)) ∧
    (∀ signed, signedHours? hours = some signed → signed.toInt = hours.toNat ∧
      ∀ lifetime, Span.ofHours? signed = some lifetime →
        lifetime.seconds.toInt = 3600 * hours.toNat ∧
          (now.second + lifetime.seconds).toInt = now.second.toInt + 3600 * hours.toNat) ∧
    ∀ fewer, fewer ≤ hours → (∃ c, issueAt now sub role hours = .ok c) →
      ∃ c, issueAt now sub role fewer = .ok c := by
  refine ⟨?_, fun e he => (issueAt_eq_error_iff.mp he).2, ?_, ?_, ?_⟩
  · rintro c hc
    obtain ⟨exp, hexp, rfl⟩ := issueAt_eq_ok_iff.mp hc
    have hnanos := nanos_expiry hexp
    refine ⟨rfl, rfl, now.div_nanos.symm, ?_⟩
    rw [← exp.div_nanos, ← now.div_nanos, hnanos]
    omega
  · simp only [issueAt_eq_error_iff, exists_and_left, exists_eq, and_true]
    exact expiry_eq_none_iff
  · intro signed hsigned
    have hvalue := toInt_signedHours hsigned
    refine ⟨hvalue, fun lifetime hlifetime => ?_⟩
    have hseconds := Span.toInt_ofHours hlifetime
    rw [hvalue] at hseconds
    exact ⟨hseconds, by rw [now.toInt_add, hseconds]⟩
  · rintro fewer hle ⟨c, hc⟩
    obtain ⟨exp, hexp, -⟩ := issueAt_eq_ok_iff.mp hc
    have hin : ¬ expiry? now hours = none := by rw [hexp]; exact nofun
    rw [expiry_eq_none_iff] at hin
    have hfewer : fewer.toNat ≤ hours.toNat := UInt64.le_iff_toNat_le.mp hle
    cases hearlier : expiry? now fewer with
    | none =>
      rw [expiry_eq_none_iff] at hearlier
      omega
    | some earlier => exact ⟨_, issueAt_of_some hearlier⟩

/-- A lifetime that ends in the last hour of the calendar, in the last nanosecond of a second. One
hour more is refused, and so are as many hours as there can be. -/
theorem lifetime_exact_or_refused_at_limit :
    let now : Instant := ⟨1750000000, 999999999, by decide, by decide, by decide⟩
    let issued (hours : UInt64) := issueAt now "7" .admin hours
    (∃ c, issued 2280143576 = .ok c ∧ c.iat.toInt = 1750000000 ∧
      c.exp.toInt - c.iat.toInt = 8208516873600) ∧
    (∃ signed lifetime, signedHours? 2280143576 = some signed ∧
      Span.ofHours? signed = some lifetime ∧
      (now.second + lifetime.seconds).toInt = 8210266873600) ∧
    (∃ c, issued 2280143575 = .ok c) ∧
    issued 2280143577 = .error ⟨2280143577⟩ ∧
    issued 0xFFFFFFFFFFFFFFFF = .error ⟨0xFFFFFFFFFFFFFFFF⟩ := by
  intro now issued
  have hend : Calendar.startOfYear 262143 = 8210266876800 := Calendar.limit_eq
  have hnanos : now.nanos = 1750000000999999999 := by decide
  have hhours : (2280143576 : UInt64).toNat = 2280143576 := by decide
  have hrefused : ∀ hours : UInt64, 2280143577 ≤ hours.toNat → issued hours = .error ⟨hours⟩ := by
    intro hours hmany
    obtain ⟨-, hsame, herror, -⟩ := lifetime_exact_or_refused now "7" .admin hours
    obtain ⟨e, he⟩ := herror.mpr (by omega)
    rw [← hsame e he]
    exact he
  obtain ⟨hclaims, -, herror, hsteps, hfewer⟩ :=
    lifetime_exact_or_refused now "7" .admin 2280143576
  obtain ⟨c, hc⟩ : ∃ c, issued 2280143576 = .ok c := by
    cases h : issued 2280143576 with
    | ok c => exact ⟨c, rfl⟩
    | error e =>
      have hlate := herror.mp ⟨e, h⟩
      omega
  obtain ⟨-, -, hiat, hlength⟩ := hclaims c hc
  have hsigned : signedHours? 2280143576 = some 2280143576 := by decide +kernel
  have hlifetime : Span.ofHours? 2280143576 = some ⟨8208516873600, by decide⟩ :=
    dif_pos (by decide +kernel)
  have hsum := ((hsteps _ hsigned).2 _ hlifetime).2
  refine ⟨⟨c, hc, by omega, by omega⟩, ⟨_, _, hsigned, hlifetime, ?_⟩,
    hfewer _ (by decide) ⟨c, hc⟩, hrefused _ (by decide), hrefused _ (by decide)⟩
  rw [hsum, hhours]
  decide

end Claims

end Gatehouse
