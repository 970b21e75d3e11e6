import RdfIndex.Proofs.Statement.Fork

/-!
# Regions and forks

The keys that split all rows into regions are numbered through: the number of a key is the number of
its order, followed by the bits of the byte after it (`regionSplits_eq`).  The first bits of a row,
as many of them as that, are a number as well, and the row is before the key of each greater number
and before no other (`lt_regionKey_iff`).  So a row is in the region of its own number
(`inRegion_iff`), which makes the regions disjoint and the keys increasing without a look at two
keys at once.

The number of a row in an order is the number of the order followed by the first bits of its first
key hash, and these bits are the number of its fork (`contains_forkRange_open_iff`).  The key of a
region and the boundary of the fork differ, in the zeros that the boundary has after its bits, but
no row comes between them.
-/

namespace RdfIndex

open Bytes (leading)

namespace Bytes

variable {bits : Nat}

/-- The first bits of a byte string after its first byte. -/
theorem leading_cons_add {rest : Bytes} (hbits : bits ≤ 8 * rest.length) (b : UInt8) :
    leading (8 + bits) (b :: rest) = b.toNat * 2 ^ bits + leading bits rest := by
  have hexponent : 8 * (b :: rest).length - (8 + bits) = 8 * rest.length - bits := by
    rw [List.length_cons]
    omega
  rw [leading, leading, hexponent, ofBigEndian_cons, ← two_pow_mul hbits, ← Nat.mul_assoc,
    Nat.add_comm, Nat.add_mul_div_right _ _ (Nat.two_pow_pos _), Nat.add_comm]

end Bytes

/-- Numbers of two digits are in the order of the first digit, then of the second. -/
theorem mul_add_lt_mul_add_iff {a b m k unit : Nat} (hm : m < unit) (hk : k < unit) :
    a * unit + m < b * unit + k ↔ a < b ∨ a = b ∧ m < k := by
  rcases Nat.lt_trichotomy a b with hab | rfl | hab
  · have hlt := Bytes.mul_add_lt_mul_add hab hm k
    exact ⟨fun _ => .inl hab, fun _ => hlt⟩
  · omega
  · have hlt := Bytes.mul_add_lt_mul_add hab hk m
    omega

theorem mul_add_inj {a b m k unit : Nat} (hm : m < unit) (hk : k < unit) :
    a * unit + m = b * unit + k ↔ a = b ∧ m = k := by
  constructor
  · intro heq
    have hlt := mul_add_lt_mul_add_iff (a := a) (b := b) hm hk
    have hgt := mul_add_lt_mul_add_iff (a := b) (b := a) hk hm
    omega
  · rintro ⟨rfl, rfl⟩
    rfl

theorem Order.number_lt (order : Order) : order.number < 6 := by
  cases order <;> decide

namespace Layout

variable {l : Layout} {order : Order} {role : Role} {bits r f : Nat} {row : Bytes}

/-! ## Keys by their numbers -/

/-- The key with a number: its order, and the bits of the byte after it unless they are zero. -/
def regionKey (bits r : Nat) : Bytes :=
  UInt8.ofNat (r / 2 ^ bits)
    :: if r % 2 ^ bits = 0 then [] else [UInt8.ofNat (r % 2 ^ bits * 2 ^ (8 - bits))]

/-- The key of an order and a number of bits. -/
theorem regionKey_mul_add {n : Nat} (hf : f < 2 ^ bits) : regionKey bits (n * 2 ^ bits + f)
    = UInt8.ofNat n :: if f = 0 then [] else [UInt8.ofNat (f * 2 ^ (8 - bits))] := by
  have hdiv : (n * 2 ^ bits + f) / 2 ^ bits = n := by
    rw [Nat.add_comm, Nat.add_mul_div_right _ _ (Nat.two_pow_pos bits), Nat.div_eq_of_lt hf,
      Nat.zero_add]
  have hmod : (n * 2 ^ bits + f) % 2 ^ bits = f := by
    rw [Nat.add_comm, Nat.add_mul_mod_self_right, Nat.mod_eq_of_lt hf]
  rw [regionKey, hdiv, hmod]

theorem orderSplits_eq (bits : Nat) (order : Order) : orderSplits bits order
    = (List.range (2 ^ bits)).map fun f => regionKey bits (order.number * 2 ^ bits + f) := by
  have hpos := Nat.two_pow_pos bits
  have hrange : List.range (2 ^ bits) = 0 :: List.range' 1 (2 ^ bits - 1) := by
    rw [List.range_eq_range', ← Nat.sub_add_cancel hpos, List.range'_succ, Nat.add_sub_cancel]
  simp only [orderSplits, Nat.pow_eq]
  rw [hrange, List.map_cons, regionKey_mul_add hpos]
  refine congrArg (_ :: ·) (List.map_congr_left fun f hf => ?_)
  obtain ⟨hone, hlt⟩ := List.mem_range'_1.1 hf
  rw [regionKey_mul_add (by omega), if_neg (by omega)]
  rfl

/-- Numbers of two digits, counted through. -/
theorem flatMap_range {α : Type} (g : Nat → α) (n m : Nat) :
    ((List.range n).flatMap fun q => (List.range m).map fun f => g (q * m + f))
      = (List.range (n * m)).map g := by
  induction n with
  | zero => rw [Nat.zero_mul]; rfl
  | succ n ih =>
    rw [List.range_succ, List.flatMap_append, ih, Nat.succ_mul, List.range_add, List.map_append,
      List.map_map, List.flatMap_singleton]
    rfl

/-- The keys of regions are numbered through, up to the key after all rows. -/
theorem regionSplits_eq (hbits : bits ≤ 8) :
    regionSplits bits = .ok ((List.range (6 * 2 ^ bits + 1)).map (regionKey bits)) := by
  have hkeys : Order.all.flatMap (orderSplits bits)
      = (List.range (6 * 2 ^ bits)).map (regionKey bits) := by
    rw [← flatMap_range, show List.range 6 = Order.all.map Order.number from rfl,
      List.flatMap_map]
    exact congrArg Order.all.flatMap (funext (orderSplits_eq bits))
  have hlast : regionKey bits (6 * 2 ^ bits) = [UInt8.ofNat Order.all.length] :=
    regionKey_mul_add (n := 6) (Nat.two_pow_pos bits)
  rw [regionSplits, if_neg (Nat.not_lt.2 hbits), hkeys, List.range_succ, List.map_append,
    List.map_singleton, hlast]

/-- A row is before the keys of the numbers that are greater than what its first bits write. -/
theorem lt_regionKey_iff (hrow : 2 ≤ row.length) (hbits : bits ≤ 8) (hr : r ≤ 6 * 2 ^ bits) :
    row < regionKey bits r ↔ leading (8 + bits) row < r := by
  obtain ⟨b, c, rest, rfl⟩ : ∃ b c rest, row = b :: c :: rest := by
    match row, hrow with
    | b :: c :: rest, _ => exact ⟨b, c, rest, rfl⟩
  have hpos := Nat.two_pow_pos bits
  have hpower : 2 ^ bits * 2 ^ (8 - bits) = 256 := by
    rw [← Nat.pow_add, Nat.add_sub_cancel' hbits]
  have hnumber : r / 2 ^ bits < 256 := by
    have hle := Nat.div_le_of_le_mul (Nat.mul_comm 6 _ ▸ hr)
    omega
  have hlow : r % 2 ^ bits < 2 ^ bits := Nat.mod_lt _ hpos
  have hbyte : r % 2 ^ bits * 2 ^ (8 - bits) < 256 :=
    hpower ▸ Nat.mul_lt_mul_of_pos_right hlow (Nat.two_pow_pos _)
  have hfirst : c.toNat / 2 ^ (8 - bits) < 2 ^ bits := by
    rw [Nat.div_lt_iff_lt_mul (Nat.two_pow_pos _), hpower]
    exact c.toNat_lt
  have hafter : c :: rest < (if r % 2 ^ bits = 0 then []
      else [UInt8.ofNat (r % 2 ^ bits * 2 ^ (8 - bits))])
      ↔ c.toNat / 2 ^ (8 - bits) < r % 2 ^ bits := by
    by_cases hzero : r % 2 ^ bits = 0
    · rw [if_pos hzero, hzero]
      simp
    · rw [if_neg hzero, List.cons_lt_cons_iff, UInt8.lt_iff_toNat_lt,
        UInt8.toNat_ofNat_of_lt' hbyte, Nat.div_lt_iff_lt_mul (Nat.two_pow_pos _)]
      simp
  have hleading : leading (8 + bits) (b :: c :: rest)
      = b.toNat * 2 ^ bits + c.toNat / 2 ^ (8 - bits) := by
    rw [Bytes.leading_cons_add (by rw [List.length_cons]; omega), Bytes.leading_cons hbits]
  rw [regionKey, List.cons_lt_cons_iff, hafter, UInt8.lt_iff_toNat_lt, ← UInt8.toNat_inj,
    UInt8.toNat_ofNat_of_lt' hnumber, ← mul_add_lt_mul_add_iff hfirst hlow, ← hleading,
    Nat.div_add_mod']

/-- The keys increase: the row that is as long as a key can be and has its number comes between it
and the next one. -/
theorem regionKey_lt {r' : Nat} (hbits : bits ≤ 8) (hr : r < r') (hr' : r' ≤ 6 * 2 ^ bits) :
    regionKey bits r < regionKey bits r' := by
  have hbound : r < 2 ^ (8 + bits) := by
    rw [Nat.pow_add]
    omega
  have hwidth : 8 + bits ≤ 8 * 2 := by omega
  have hlength : (leadingBits 2 (8 + bits) r).length = 2 := length_leadingBits 2 (8 + bits) r
  have hnumber := leading_leadingBits hwidth hbound
  have hlow : ¬ leadingBits 2 (8 + bits) r < regionKey bits r := by
    rw [lt_regionKey_iff (Nat.le_of_eq hlength.symm) hbits (by omega), hnumber]
    exact Nat.lt_irrefl r
  have hhigh : leadingBits 2 (8 + bits) r < regionKey bits r' := by
    rw [lt_regionKey_iff (Nat.le_of_eq hlength.symm) hbits hr', hnumber]
    exact hr
  exact Std.lt_of_le_of_lt (Std.not_lt.1 hlow) hhigh

/-! ## Regions -/

/-- A row is in the region from one key of a list to before the next one. -/
def InRegion (keys : List Bytes) (r : Nat) (row : Bytes) : Prop :=
  ∃ start stop, keys[r]? = some start ∧ keys[r + 1]? = some stop ∧ start ≤ row ∧ row < stop

/-- A row is in the region of the number that its first bits write. -/
theorem inRegion_iff (hrow : 2 ≤ row.length) (hbits : bits ≤ 8) :
    InRegion ((List.range (6 * 2 ^ bits + 1)).map (regionKey bits)) r row
      ↔ r < 6 * 2 ^ bits ∧ leading (8 + bits) row = r := by
  by_cases hr : r < 6 * 2 ^ bits
  · have hstart := lt_regionKey_iff hrow hbits (Nat.le_of_lt hr)
    have hstop := lt_regionKey_iff hrow hbits hr
    have hbetween : regionKey bits r ≤ row ∧ row < regionKey bits (r + 1)
        ↔ leading (8 + bits) row = r := by
      rw [← Std.not_lt, hstart, hstop]
      omega
    rw [InRegion, List.getElem?_map, List.getElem?_map, List.getElem?_range (by omega),
      List.getElem?_range (by omega)]
    simp [hbetween, hr]
  · refine ⟨?_, fun h => absurd h.1 hr⟩
    rintro ⟨start, stop, _, hstop, _⟩
    rw [List.getElem?_map, List.getElem?_eq_none (by rw [List.length_range]; omega)] at hstop
    cases hstop

/-! ## Forks -/

/-- All rows of an order can be split on its first role by the bits of a byte. -/
theorem splits_open (l : Layout) (hrole : order.roles.head? = some role) (hbits : bits ≤ 8) :
    l.Splits order .open_ role bits := by
  have hwidth := (l.width_bounds role).1
  refine ⟨by cases order <;> rfl, ?_, by omega⟩
  rw [Pattern.FirstOpen, ← hrole]
  cases order <;> rfl

theorem toNat_orderByte (order : Order) : (orderByte order).toNat = order.number := by
  cases order <;> rfl

theorem two_le_rowSize (l : Layout) (order : Order) : 2 ≤ l.rowSize order := by
  have hsubject : Role.subject ∈ order.roles := order.mem_roles nofun
  have hwidth := (l.width_bounds .subject).1
  have hle := total_takeWhile_add_le l.widths.get hsubject
  rw [rowSize]
  omega

/-- A row of the size of an order's rows is in a fork of all of them if and only if it starts with
the order and goes on with the bits of the fork. -/
theorem contains_forkRange_open_iff (hrole : order.roles.head? = some role) (hbits : bits ≤ 8)
    (hf : f < 2 ^ bits) {b : UInt8} {rest : Bytes} (hrow : (b :: rest).length = l.rowSize order) :
    (l.forkRange order .open_ role bits f).contains (b :: rest) = true
      ↔ b = orderByte order ∧ leading bits rest = f := by
  have h := l.splits_open hrole hbits
  have hfits : l.Fits .open_ := by
    intro r id hid
    cases r <;> cases hid
  have hwhole := contains_rangeFor_iff hfits hrow
  have hstart : l.rangeStart order .open_ = [orderByte order] := by
    cases order <;> rfl
  have hkey : l.keyAt order role (b :: rest) = rest.take (l.widths.get role) := by
    have hbefore : rolesBefore order role = [] := by
      rw [h.first.rolesBefore_eq]
      cases order <;> rfl
    rw [keyAt, hbefore]
    rfl
  have hlength := length_keyAt hrow h.first.mem_roles
  have hleading : leading bits (rest.take (l.widths.get role)) = leading bits rest := by
    have hshown : bits ≤ 8 * (rest.take (l.widths.get role)).length := by
      rw [← hkey, hlength]
      exact h.bits_le
    have hfirst := Bytes.leading_append hshown (rest.drop (l.widths.get role))
    rw [← hfirst, List.take_append_drop]
  rw [hstart, List.cons_prefix_cons] at hwhole
  constructor
  · intro hcontains
    have hbegins := hwhole.1 (h.tiles.contains_whole hf hcontains)
    refine ⟨hbegins.1.symm, ?_⟩
    rw [← hleading, ← hkey]
    exact (h.contains_forkRange_iff hfits hrow (hwhole.2 hbegins) hf).1 hcontains
  · rintro ⟨rfl, hnumber⟩
    rw [h.contains_forkRange_iff hfits hrow (hwhole.2 ⟨rfl, List.nil_prefix⟩) hf, hkey, hleading]
    exact hnumber

/-- A row that is of an order's size, or of another order, is in a fork of all rows of the order if
and only if it is in the region of the fork. -/
theorem contains_forkRange_iff_inRegion (hrole : order.roles.head? = some role) (hbits : bits ≤ 8)
    (hf : f < 2 ^ bits) (hsize : 2 ≤ row.length)
    (hrow : row.length = l.rowSize order ∨ row.head? ≠ some (orderByte order)) :
    (l.forkRange order .open_ role bits f).contains row = true
      ↔ InRegion ((List.range (6 * 2 ^ bits + 1)).map (regionKey bits))
        (order.number * 2 ^ bits + f) row := by
  obtain ⟨b, rest, rfl⟩ := List.exists_cons_of_ne_nil (List.ne_nil_of_length_pos
    (Nat.lt_of_lt_of_le Nat.zero_lt_two hsize))
  have hrest : bits ≤ 8 * rest.length := by
    rw [List.length_cons] at hsize
    omega
  have hlast : order.number * 2 ^ bits + f < 6 * 2 ^ bits := by
    have hlt := Bytes.mul_add_lt_mul_add order.number_lt hf 0
    rwa [Nat.add_zero] at hlt
  have hregion : InRegion ((List.range (6 * 2 ^ bits + 1)).map (regionKey bits))
      (order.number * 2 ^ bits + f) (b :: rest) ↔ b = orderByte order ∧ leading bits rest = f := by
    rw [inRegion_iff hsize hbits, Bytes.leading_cons_add hrest,
      mul_add_inj (Bytes.leading_lt hrest) hf, and_iff_right hlast, ← toNat_orderByte,
      UInt8.toNat_inj]
  rw [hregion]
  by_cases hfirst : b = orderByte order
  · have hlength := hrow.resolve_right fun hne => hne (congrArg some hfirst)
    exact contains_forkRange_open_iff hrole hbits hf hlength
  · -- All byte strings of a fork start with its order.
    refine iff_of_false (fun hcontains => hfirst ?_) fun h => hfirst h.1
    have hwhole := (l.splits_open hrole hbits).tiles.contains_whole hf hcontains
    have hprefix := isPrefix_of_contains hwhole
    exact (List.cons_prefix_cons.1 hprefix).1.symm

/-- Regions and forks match.  The keys of regions increase, and there are as many regions as orders
times numbers of the bits.  The row of a statement in any order is in the region of an order and a
number if and only if it is in the fork of all rows of that order with that number, and it is in one
region only.  No fork reaches into another region: a byte string of the size of rows that is in a
fork, be it the row of a statement or not, is in the region of the fork and in no other. -/
theorem regions_match_forks (l : Layout) (bits : Nat) (hbits : bits ≤ 8) :
    ∃ keys, regionSplits bits = .ok keys ∧ keys.length = 6 * 2 ^ bits + 1
      ∧ keys.Pairwise (· < ·)
      ∧ (∀ order role, order.roles.head? = some role → ∀ f < 2 ^ bits, ∃ fork,
        l.partition order role (2 ^ bits) f = .ok fork
          ∧ (∀ ids, l.Sized ids → ∀ order',
            (InRegion keys (order.number * 2 ^ bits + f) (l.row order' ids)
              ↔ fork.contains (l.row order' ids) = true))
          ∧ ∀ row, row.length = l.rowSize order → fork.contains row = true →
            ∀ r, InRegion keys r row ↔ r = order.number * 2 ^ bits + f)
      ∧ ∀ ids, l.Sized ids → ∀ order, ∃! r, InRegion keys r (l.row order ids) := by
  refine ⟨_, regionSplits_eq hbits, by rw [List.length_map, List.length_range], ?_, ?_, ?_⟩
  · rw [List.pairwise_map]
    refine List.pairwise_lt_range.imp_of_mem fun _ hmem hlt => ?_
    exact regionKey_lt hbits hlt (Nat.le_of_lt_succ (List.mem_range.1 hmem))
  · intro order role hrole f hf
    refine ⟨l.forkRange order .open_ role bits f, ?_, ?_, ?_⟩
    · rw [partition, (l.splits_open hrole hbits).checkFork_eq hf]
      rfl
    · intro ids hids order'
      have hlength := hids.length_row order'
      refine (contains_forkRange_iff_inRegion hrole hbits hf
        (hlength ▸ l.two_le_rowSize order') ?_).symm
      by_cases horder : order' = order
      · exact .inl (horder ▸ hlength)
      · exact .inr fun hhead => horder (orderByte_inj (Option.some.inj hhead))
    · intro row hrow hcontains r
      have hsize := hrow ▸ l.two_le_rowSize order
      have hregion := (contains_forkRange_iff_inRegion hrole hbits hf hsize (.inl hrow)).1 hcontains
      rw [inRegion_iff hsize hbits] at hregion ⊢
      constructor
      · rintro ⟨_, rfl⟩
        exact hregion.2
      · rintro rfl
        exact hregion
  · intro ids hids order
    have hsize := hids.length_row order ▸ l.two_le_rowSize order
    have hregion := fun r => inRegion_iff (r := r) hsize hbits
    have hlast : leading (8 + bits) (l.row order ids) < 6 * 2 ^ bits := by
      have hrest : bits ≤ 8 * (order.roles.flatMap
          fun role => l.keyHash order role (l.filed ids role)).length := by
        rw [row, List.length_cons] at hsize
        omega
      rw [row, Bytes.leading_cons_add hrest, toNat_orderByte]
      have hlt := Bytes.mul_add_lt_mul_add order.number_lt (Bytes.leading_lt hrest) 0
      rwa [Nat.add_zero] at hlt
    exact ⟨_, (hregion _).2 ⟨hlast, rfl⟩, fun r h => ((hregion r).1 h).2.symm⟩

/-- A row whose first key hash begins with the bits 101 is in the region of its order with the
number five, and not in that of another order. -/
theorem regions_match_forks_narrow : ∃ keys, regionSplits 3 = .ok keys
    ∧ InRegion keys 13 (narrowLayout.row .pos (narrowIds ⟨[0, 0]⟩ ⟨[0xB4, 0]⟩ ⟨[0, 0]⟩))
    ∧ ¬ InRegion keys 5 (narrowLayout.row .pos (narrowIds ⟨[0, 0]⟩ ⟨[0xB4, 0]⟩ ⟨[0, 0]⟩)) := by
  have hids : narrowLayout.Sized (narrowIds ⟨[0, 0]⟩ ⟨[0xB4, 0]⟩ ⟨[0, 0]⟩) := by
    intro role id hid
    cases role <;> cases hid <;> rfl
  obtain ⟨keys, hkeys, _, _, hforks, _⟩ := regions_match_forks narrowLayout 3 (by decide)
  obtain ⟨fork, hfork, _, hrow⟩ := hforks .pos .predicate rfl 5 (by decide)
  cases hfork
  have hregion := hrow _ (hids.length_row .pos) (by decide +kernel)
  refine ⟨keys, hkeys, (hregion 13).2 rfl, ?_⟩
  rw [hregion]
  decide

end Layout

end RdfIndex
