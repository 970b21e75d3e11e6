import RdfIndex.Proofs.Bytes.Numbers

/-!
# Byte strings in order

Byte strings of one length are in the order of the numbers that they write, most significant byte
first (`lt_iff_ofBigEndian_lt`), and what follows one of them does not count (`append_lt_iff`).  A
byte string between a start and the start with something after it has the start
(`isPrefix_of_between`).  The first bits of a byte string, as a number, are its number without the
lower bits (`leading`).
-/

namespace RdfIndex.Bytes

variable {x y rest : Bytes} {bits n : Nat}

/-! ## Numbers of byte strings -/

theorem foldl_eq (bytes : Bytes) : ∀ acc : Nat,
    bytes.foldl (fun n b => n * 256 + b.toNat) acc
      = acc * 256 ^ bytes.length + ofBigEndian bytes := by
  induction bytes with
  | nil => simp [ofBigEndian]
  | cons b bytes ih =>
    intro acc
    rw [ofBigEndian, List.foldl_cons, List.foldl_cons, ih, ih, List.length_cons, Nat.pow_succ,
      Nat.zero_mul, Nat.zero_add, Nat.add_mul, Nat.add_assoc, Nat.mul_assoc,
      Nat.mul_comm 256 (256 ^ bytes.length)]

theorem ofBigEndian_cons (b : UInt8) (bytes : Bytes) :
    ofBigEndian (b :: bytes) = b.toNat * 256 ^ bytes.length + ofBigEndian bytes := by
  rw [ofBigEndian, List.foldl_cons, foldl_eq, Nat.zero_mul, Nat.zero_add]

theorem ofBigEndian_lt (bytes : Bytes) : ofBigEndian bytes < 256 ^ bytes.length := by
  induction bytes with
  | nil => simp [ofBigEndian]
  | cons b bytes ih =>
    have hb : b.toNat + 1 ≤ 256 := b.toNat_lt
    calc ofBigEndian (b :: bytes)
        = b.toNat * 256 ^ bytes.length + ofBigEndian bytes := ofBigEndian_cons b bytes
      _ < b.toNat * 256 ^ bytes.length + 256 ^ bytes.length := Nat.add_lt_add_left ih _
      _ = (b.toNat + 1) * 256 ^ bytes.length := (Nat.succ_mul _ _).symm
      _ ≤ 256 * 256 ^ bytes.length := Nat.mul_le_mul_right _ hb
      _ = 256 ^ (b :: bytes).length := by rw [List.length_cons, Nat.pow_succ, Nat.mul_comm]

theorem ofBigEndian_append (x y : Bytes) :
    ofBigEndian (x ++ y) = ofBigEndian x * 256 ^ y.length + ofBigEndian y := by
  rw [ofBigEndian, List.foldl_append, foldl_eq y]
  rfl

/-- A greater digit counts for more than all later ones. -/
theorem mul_add_lt_mul_add {a b m unit : Nat} (h : a < b) (hm : m < unit) (k : Nat) :
    a * unit + m < b * unit + k := by
  have hle : (a + 1) * unit ≤ b * unit := Nat.mul_le_mul_right unit h
  rw [Nat.succ_mul] at hle
  omega

/-! ## Order -/

/-- Byte strings of one length are in the order of their numbers. -/
theorem lt_iff_ofBigEndian_lt : ∀ {y : Bytes}, x.length = y.length →
    (x < y ↔ ofBigEndian x < ofBigEndian y) := by
  induction x with
  | nil =>
    intro y h
    rw [List.length_eq_zero_iff.1 h.symm]
    simp [ofBigEndian]
  | cons a x ih =>
    intro y h
    cases y with
    | nil => cases h
    | cons b y =>
      have hlength : x.length = y.length := Nat.succ.inj h
      have hx := ofBigEndian_lt x
      have hy := ofBigEndian_lt y
      rw [List.cons_lt_cons_iff, ih hlength, ofBigEndian_cons, ofBigEndian_cons, ← hlength,
        UInt8.lt_iff_toNat_lt, ← UInt8.toNat_inj]
      rw [← hlength] at hy
      rcases Nat.lt_trichotomy a.toNat b.toNat with hab | hab | hab
      · exact ⟨fun _ => mul_add_lt_mul_add hab hx _, fun _ => .inl hab⟩
      · rw [hab]
        omega
      · have hlater := mul_add_lt_mul_add hab hy (ofBigEndian x)
        omega

/-- Byte strings of one length with one number are the same. -/
theorem eq_of_ofBigEndian_eq (hlength : x.length = y.length)
    (h : ofBigEndian x = ofBigEndian y) : x = y := by
  refine Std.le_antisymm (Std.not_lt.1 fun hlt => ?_) (Std.not_lt.1 fun hlt => ?_)
  · exact Nat.ne_of_gt ((lt_iff_ofBigEndian_lt hlength.symm).1 hlt) h
  · exact Nat.ne_of_lt ((lt_iff_ofBigEndian_lt hlength).1 hlt) h

/-- A byte string is what its number is written as. -/
theorem toBigEndian_ofBigEndian (x : Bytes) : toBigEndian x.length (ofBigEndian x) = x :=
  eq_of_ofBigEndian_eq (length_toBigEndian _ _) (ofBigEndian_toBigEndian_of_lt (ofBigEndian_lt x))

theorem ofInt_toInt (x : Bytes) : ofInt x.length (toInt x) = x := by
  rw [ofInt, toInt, toTwos_ofTwos (ofBigEndian_lt x), toBigEndian_ofBigEndian]

theorem append_lt_iff : ∀ {y : Bytes}, x.length = y.length → (x ++ rest < y ↔ x < y) := by
  induction x with
  | nil =>
    intro y h
    rw [List.length_eq_zero_iff.1 h.symm]
    simp
  | cons a x ih =>
    intro y h
    cases y with
    | nil => cases h
    | cons b y =>
      rw [List.cons_append, List.cons_lt_cons_iff, List.cons_lt_cons_iff, ih (Nat.succ.inj h)]

theorem append_lt_append_iff (start : Bytes) : start ++ x < start ++ y ↔ x < y := by
  induction start with
  | nil => rfl
  | cons a start ih =>
    rw [List.cons_append, List.cons_append, List.cons_lt_cons_iff, ih]
    simp

/-! ## Between a start and what follows it -/

theorem isPrefix_of_between {start tail : Bytes} : ∀ {row : Bytes}, ¬ row < start →
    row < start ++ tail → start <+: row := by
  induction start with
  | nil =>
    intro row _ _
    exact List.nil_prefix
  | cons a start ih =>
    intro row hlow hhigh
    cases row with
    | nil => exact absurd (List.nil_lt_cons a start) hlow
    | cons b row =>
      rw [List.cons_lt_cons_iff, not_or, not_and] at hlow
      rw [List.cons_append, List.cons_lt_cons_iff] at hhigh
      obtain ⟨rfl, hrow⟩ := hhigh.resolve_left hlow.1
      exact List.cons_prefix_cons.2 ⟨rfl, ih (hlow.2 rfl) hrow⟩

theorem not_append_lt (start rest : Bytes) : ¬ start ++ rest < start := by
  induction start with
  | nil => exact List.not_lt_nil rest
  | cons a start ih =>
    rw [List.cons_append, List.cons_lt_cons_iff]
    rintro (h | ⟨_, h⟩)
    · exact UInt8.lt_irrefl a h
    · exact ih h

theorem lt_append (start : Bytes) (h : rest ≠ []) : start < start ++ rest := by
  induction start with
  | nil =>
    cases rest with
    | nil => exact absurd rfl h
    | cons b rest => exact List.nil_lt_cons b rest
  | cons a start ih => exact List.cons_lt_cons_iff.2 (.inr ⟨rfl, ih⟩)

/-- A byte string comes before a longer one of the greatest bytes. -/
theorem lt_replicate {n : Nat} : ∀ {rest : Bytes}, rest.length ≤ n →
    rest < List.replicate (n + 1) 0xFF := by
  induction n with
  | zero =>
    intro rest h
    rw [List.length_eq_zero_iff.1 (Nat.le_zero.1 h)]
    exact List.nil_lt_cons _ _
  | succ n ih =>
    intro rest h
    cases rest with
    | nil => exact List.nil_lt_cons _ _
    | cons b rest =>
      rw [List.replicate_succ, List.cons_lt_cons_iff]
      by_cases hb : b = 0xFF
      · exact .inr ⟨hb, ih (Nat.le_of_succ_le_succ h)⟩
      · refine .inl (UInt8.lt_of_le_of_ne ?_ hb)
        exact UInt8.le_iff_toNat_le.2 (Nat.le_of_lt_succ b.toNat_lt)

/-! ## First bits -/

/-- The first bits of a byte string as a number. -/
def leading (bits : Nat) (bytes : Bytes) : Nat :=
  ofBigEndian bytes / 2 ^ (8 * bytes.length - bits)

theorem two_pow_mul (h : bits ≤ 8 * n) : 2 ^ bits * 2 ^ (8 * n - bits) = 256 ^ n := by
  rw [← Nat.pow_add, Nat.add_sub_cancel' h, Nat.pow_mul]

theorem leading_lt (h : bits ≤ 8 * x.length) : leading bits x < 2 ^ bits := by
  refine Nat.div_lt_of_lt_mul ?_
  rw [Nat.mul_comm, two_pow_mul h]
  exact ofBigEndian_lt x

/-- Fewer bits are the first of more bits. -/
theorem leading_div {few : Nat} (hfew : few ≤ bits) (hbits : bits ≤ 8 * x.length) :
    leading bits x / 2 ^ (bits - few) = leading few x := by
  have hexponent : 8 * x.length - bits + (bits - few) = 8 * x.length - few := by omega
  rw [leading, leading, Nat.div_div_eq_div_mul, ← Nat.pow_add, hexponent]

/-- What follows does not count for no more bits than there are before it. -/
theorem leading_append (hbits : bits ≤ 8 * x.length) (y : Bytes) :
    leading bits (x ++ y) = leading bits x := by
  have hexponent : 8 * (x ++ y).length - bits = 8 * y.length + (8 * x.length - bits) := by
    rw [List.length_append]
    omega
  have hlater := ofBigEndian_lt y
  rw [leading, hexponent, Nat.pow_add, Nat.pow_mul, ← Nat.div_div_eq_div_mul, ofBigEndian_append,
    Nat.add_comm, Nat.add_mul_div_right _ _ (Nat.pow_pos (by decide)),
    Nat.div_eq_of_lt hlater, Nat.zero_add, leading]

/-- No more than eight bits are those of the first byte. -/
theorem leading_cons (hbits : bits ≤ 8) (b : UInt8) (bytes : Bytes) :
    leading bits (b :: bytes) = b.toNat / 2 ^ (8 - bits) := by
  have hfirst := leading_append (x := [b]) hbits bytes
  rw [List.singleton_append] at hfirst
  rw [hfirst, leading, ofBigEndian_cons]
  simp [ofBigEndian]

end RdfIndex.Bytes
