import Mathlib.Logic.ExistsUnique
import RdfIndex.Proofs.Statement.Scan
import RdfIndex.Statement.Fork

/-!
# Forks cover a scan

The forks of a scan follow one another from the start of its range to its stop, and none of them is
empty (`Tiles`).  So each byte string of the range is in one fork, and no other byte string is in
any.  A row of the range is in the fork whose number its key hash starts with
(`contains_forkRange_iff`): the boundary before a fork is the start of the range with the number of
the fork and zeros after it, and a row is before the boundary if and only if its key hash starts
with a smaller number (`lt_forkStart_iff`).
-/

namespace RdfIndex

/-! ## Ranges one after the other -/

/-- Ranges that follow one another from the start of a range to its stop, none of them empty. -/
structure Tiles (whole : ScanRange) (count : Nat) (fork : Nat → ScanRange) : Prop where
  count_pos : 0 < count
  order_eq : ∀ f < count, (fork f).order = whole.order
  first : (fork 0).start = whole.start
  last : (fork (count - 1)).stop = whole.stop
  next : ∀ f, f + 1 < count → (fork f).stop = (fork (f + 1)).start
  start_lt_stop : ∀ f < count, (fork f).start < (fork f).stop

namespace Tiles

open Layout (contains_iff)

variable {whole : ScanRange} {count f g : Nat} {fork : Nat → ScanRange} {bytes : Bytes}

theorem stop_le_start (h : Tiles whole count fork) (hfg : f < g) (hg : g < count) :
    (fork f).stop ≤ (fork g).start := by
  induction g with
  | zero => cases hfg
  | succ g ih =>
    rw [← h.next g hg]
    rcases Nat.lt_succ_iff_lt_or_eq.1 hfg with hlt | rfl
    · have hle := ih hlt (by omega)
      exact Std.le_trans hle (Std.le_of_lt (h.start_lt_stop g (by omega)))
    · exact Std.le_refl _

theorem start_le (h : Tiles whole count fork) (hf : f < count) :
    whole.start ≤ (fork f).start := by
  rw [← h.first]
  cases f with
  | zero => exact Std.le_refl _
  | succ f =>
    have hle := h.stop_le_start (Nat.succ_pos f) hf
    exact Std.le_trans (Std.le_of_lt (h.start_lt_stop 0 h.count_pos)) hle

theorem stop_le (h : Tiles whole count fork) (hf : f < count) : (fork f).stop ≤ whole.stop := by
  have hpos := h.count_pos
  rw [← h.last]
  by_cases heq : f = count - 1
  · subst heq
    exact Std.le_refl _
  · have hle := h.stop_le_start (show f < count - 1 by omega) (by omega)
    exact Std.le_trans hle (Std.le_of_lt (h.start_lt_stop (count - 1) (by omega)))

theorem contains_whole (h : Tiles whole count fork) (hf : f < count)
    (hbytes : (fork f).contains bytes = true) : whole.contains bytes = true := by
  obtain ⟨hlow, hhigh⟩ := contains_iff.1 hbytes
  exact contains_iff.2
    ⟨Std.le_trans (h.start_le hf) hlow, Std.lt_of_lt_of_le hhigh (h.stop_le hf)⟩

/-- A byte string before the stop of a range is in that range or in an earlier one. -/
theorem exists_of_lt_stop (h : Tiles whole count fork) (hlow : whole.start ≤ bytes)
    (hf : f < count) (hhigh : bytes < (fork f).stop) :
    ∃ g ≤ f, (fork g).contains bytes = true := by
  induction f with
  | zero => exact ⟨0, Nat.le_refl 0, contains_iff.2 ⟨h.first ▸ hlow, hhigh⟩⟩
  | succ f ih =>
    by_cases hearlier : bytes < (fork f).stop
    · obtain ⟨g, hg, hcontains⟩ := ih (by omega) hearlier
      exact ⟨g, by omega, hcontains⟩
    · refine ⟨f + 1, Nat.le_refl _, contains_iff.2 ⟨?_, hhigh⟩⟩
      rw [← h.next f hf]
      exact Std.not_lt.1 hearlier

theorem not_contains_of_lt (h : Tiles whole count fork) (hfg : f < g) (hg : g < count)
    (hf : (fork f).contains bytes = true) : ¬ (fork g).contains bytes = true := by
  intro hlater
  have hlt := Std.lt_of_lt_of_le (contains_iff.1 hf).2 (h.stop_le_start hfg hg)
  exact Std.not_lt.2 (contains_iff.1 hlater).1 hlt

/-- A byte string of the whole range is in one of the ranges and in no other. -/
theorem existsUnique (h : Tiles whole count fork) (hbytes : whole.contains bytes = true) :
    ∃! f, f < count ∧ (fork f).contains bytes = true := by
  have hpos := h.count_pos
  obtain ⟨hlow, hhigh⟩ := contains_iff.1 hbytes
  rw [← h.last] at hhigh
  obtain ⟨f, hf, hcontains⟩ := h.exists_of_lt_stop hlow (by omega) hhigh
  refine ⟨f, ⟨by omega, hcontains⟩, ?_⟩
  rintro g ⟨hg, hother⟩
  rcases Nat.lt_trichotomy g f with hlt | heq | hlt
  · exact absurd hcontains (h.not_contains_of_lt hlt (by omega) hother)
  · exact heq
  · exact absurd hother (h.not_contains_of_lt hlt hg hcontains)

end Tiles

/-! ## The first open role -/

/-- A role is the first one of an order that a pattern leaves open. -/
def Pattern.FirstOpen (p : Pattern) (order : Order) (role : Role) : Prop :=
  order.roles.find? (fun r => !p.binds r) = some role

namespace Pattern.FirstOpen

variable {p : Pattern} {order : Order} {role : Role}

theorem binds_eq_false (h : p.FirstOpen order role) : p.binds role = false := by
  have hopen := (List.find?_eq_some_iff_append.1 h).1
  simpa using hopen

theorem split (h : p.FirstOpen order role) :
    ∃ later, order.roles.dropWhile p.binds = role :: later := by
  obtain ⟨hopen, front, later, hroles, hfront⟩ := List.find?_eq_some_iff_append.1 h
  refine ⟨later, ?_⟩
  have hbinds : ∀ r ∈ front, p.binds r = true := fun r hr => by simpa using hfront r hr
  rw [hroles, List.dropWhile_append_of_pos hbinds,
    List.dropWhile_cons_of_neg (by simpa using hopen)]

theorem roles_eq (h : p.FirstOpen order role) :
    ∃ later, order.roles = order.roles.takeWhile p.binds ++ role :: later := by
  obtain ⟨later, hlater⟩ := h.split
  refine ⟨later, ?_⟩
  rw [← hlater, List.takeWhile_append_dropWhile]

theorem mem_roles (h : p.FirstOpen order role) : role ∈ order.roles := List.mem_of_find?_eq_some h

theorem ne_of_mem (h : p.FirstOpen order role) {r : Role}
    (hr : r ∈ order.roles.takeWhile p.binds) : r ≠ role := by
  rintro rfl
  have hbinds := binds_of_mem_takeWhile hr
  rw [h.binds_eq_false] at hbinds
  cases hbinds

/-- The roles before the first open one are the bound ones. -/
theorem rolesBefore_eq (h : p.FirstOpen order role) :
    Layout.rolesBefore order role = order.roles.takeWhile p.binds := by
  obtain ⟨later, hroles⟩ := h.roles_eq
  have hbefore : ∀ r ∈ order.roles.takeWhile p.binds, (r != role) = true :=
    fun r hr => bne_iff_ne.2 (h.ne_of_mem hr)
  calc order.roles.takeWhile (· != role)
      = (order.roles.takeWhile p.binds ++ role :: later).takeWhile (· != role) := by rw [← hroles]
    _ = order.roles.takeWhile p.binds := by
      rw [List.takeWhile_append_of_pos hbefore, List.takeWhile_cons_of_neg (by simp),
        List.append_nil]

theorem position?_eq (h : p.FirstOpen order role) :
    order.position? role = some (order.roles.takeWhile p.binds).length := by
  obtain ⟨later, hroles⟩ := h.roles_eq
  have hnone : (order.roles.takeWhile p.binds).findIdx? (· == role) = none :=
    List.findIdx?_eq_none_iff.2 fun r hr => beq_eq_false_iff_ne.2 (h.ne_of_mem hr)
  calc order.roles.findIdx? (· == role)
      = (order.roles.takeWhile p.binds ++ role :: later).findIdx? (· == role) := by rw [← hroles]
    _ = some (order.roles.takeWhile p.binds).length := by
      simp [List.findIdx?_append, hnone, List.findIdx?_cons]

end Pattern.FirstOpen

/-! ## Numbers of forks -/

theorem length_leadingBits (width bits n : Nat) : (leadingBits width bits n).length = width :=
  Bytes.length_toBigEndian width _

theorem leadingBits_ne_nil {width : Nat} (h : 0 < width) (bits n : Nat) :
    leadingBits width bits n ≠ [] :=
  List.ne_nil_of_length_pos ((length_leadingBits width bits n).symm ▸ h)

theorem ofBigEndian_leadingBits {width bits n : Nat} (hbits : bits ≤ 8 * width)
    (hn : n < 2 ^ bits) :
    Bytes.ofBigEndian (leadingBits width bits n) = n * 2 ^ (8 * width - bits) := by
  rw [leadingBits, Nat.pow_eq, Bytes.ofBigEndian_toBigEndian_of_lt]
  rw [Nat.pow_eq, ← Bytes.two_pow_mul hbits]
  exact Nat.mul_lt_mul_of_pos_right hn (Nat.two_pow_pos _)

/-- A byte string is before a number with zeros after it if and only if it starts with a smaller
number. -/
theorem append_lt_leadingBits_iff {width bits n : Nat} {key rest : Bytes}
    (hkey : key.length = width) (hbits : bits ≤ 8 * width) (hn : n < 2 ^ bits) :
    key ++ rest < leadingBits width bits n ↔ Bytes.leading bits key < n := by
  have hlength : key.length = (leadingBits width bits n).length :=
    hkey.trans (length_leadingBits width bits n).symm
  rw [Bytes.append_lt_iff hlength, Bytes.lt_iff_ofBigEndian_lt hlength,
    ofBigEndian_leadingBits hbits hn, Bytes.leading, hkey,
    Nat.div_lt_iff_lt_mul (Nat.two_pow_pos _)]

theorem leading_leadingBits {width bits n : Nat} (hbits : bits ≤ 8 * width) (hn : n < 2 ^ bits) :
    Bytes.leading bits (leadingBits width bits n) = n := by
  rw [Bytes.leading, ofBigEndian_leadingBits hbits hn, length_leadingBits,
    Nat.mul_div_cancel _ (Nat.two_pow_pos _)]

namespace Layout

variable {l : Layout} {order : Order} {p : Pattern} {role : Role} {bits f : Nat} {row : Bytes}

/-! ## Boundaries of forks -/

/-- What a scan can be split on: its first open role, by no more bits than the key hash has. -/
structure Splits (l : Layout) (order : Order) (p : Pattern) (role : Role) (bits : Nat) : Prop where
  leads : p.leads order = true
  first : p.FirstOpen order role
  bits_le : bits ≤ 8 * l.widths.get role

namespace Splits

variable (h : l.Splits order p role bits)

include h

theorem width_le_tailWidth : l.widths.get role ≤ l.tailWidth order p := by
  obtain ⟨later, hlater⟩ := h.first.split
  rw [tailWidth, hlater, total_cons]
  omega

theorem checkFork_eq (hf : f < 2 ^ bits) :
    l.checkFork order p role (2 ^ bits) f = .ok bits := by
  have hpower : isPowerOfTwo (2 ^ bits) = true := by
    simp [isPowerOfTwo, Nat.log2_two_pow]
  have hbits := h.bits_le
  rw [checkFork, hpower, h.leads, h.first.position?_eq, Nat.log2_two_pow]
  simp [Nat.not_le.2 hf, Nat.not_lt.2 hbits]

/-- A scan that can be split has all its forks, but for those that a condition rules out. -/
theorem partitionScan_eq (hf : f < 2 ^ bits) (accept? : Option (Identifier → Bool)) :
    l.partitionScan order p role (2 ^ bits) f accept?
      = .ok (if accept?.all (l.forkMayMatch order role bits f) then
          some (l.forkRange order p role bits f) else none) := by
  rw [partitionScan, h.checkFork_eq hf]
  show (if accept?.all _ then _ else _ : Except UsageError (Option ScanRange)) = _
  split <;> rfl

/-- A fork starts before it stops. -/
theorem start_lt_stop (hf : f < 2 ^ bits) : (l.forkRange order p role bits f).start
    < (l.forkRange order p role bits f).stop := by
  have hwidth := h.width_le_tailWidth
  have hpos := (l.width_bounds role).1
  have hlength : (leadingBits (l.widths.get role) bits f).length ≤ l.tailWidth order p :=
    (length_leadingBits _ bits f).symm ▸ hwidth
  simp only [forkRange, Nat.pow_eq]
  by_cases hfirst : f = 0 <;> by_cases hlast : f + 1 = 2 ^ bits
  · rw [if_pos hfirst, if_pos hlast]
    exact Bytes.lt_append _ (List.cons_ne_nil _ _)
  · rw [if_pos hfirst, if_neg hlast]
    exact Bytes.lt_append _ (leadingBits_ne_nil hpos bits (f + 1))
  · rw [if_neg hfirst, if_pos hlast]
    exact (Bytes.append_lt_append_iff _).2 (Bytes.lt_replicate hlength)
  · rw [if_neg hfirst, if_neg hlast]
    have hnext : f + 1 < 2 ^ bits := by omega
    refine (Bytes.append_lt_append_iff _).2 ?_
    rw [← List.append_nil (leadingBits _ bits f), append_lt_leadingBits_iff
      (length_leadingBits _ _ _) h.bits_le hnext, leading_leadingBits h.bits_le hf]
    exact Nat.lt_succ_self f

/-- The forks of a scan follow one another from its start to its stop. -/
theorem tiles : Tiles (l.rangeFor order p) (2 ^ bits) (l.forkRange order p role bits) := by
  have hpos := Nat.two_pow_pos bits
  refine ⟨hpos, fun _ _ => rfl, rfl, ?_, ?_, fun f hf => h.start_lt_stop hf⟩
  · simp only [forkRange, Nat.pow_eq]
    exact if_pos (by omega)
  · intro f hf
    simp only [forkRange, Nat.pow_eq]
    rw [if_neg (by omega), if_neg (by omega)]

/-- A row of the range of a scan is the start of the range and the key hash of the first open role,
with what follows. -/
theorem split_row (hp : l.Fits p) (hbegins : l.rangeStart order p <+: row) :
    ∃ rest, row = l.rangeStart order p ++ (l.keyAt order role row ++ rest) := by
  obtain ⟨tail, rfl⟩ := hbegins
  have hkey : l.keyAt order role (l.rangeStart order p ++ tail)
      = tail.take (l.widths.get role) := by
    rw [keyAt, h.first.rolesBefore_eq, ← length_rangeStart hp, List.drop_left]
  exact ⟨tail.drop (l.widths.get role), by rw [hkey, List.take_append_drop]⟩

/-- A row of the range of a scan is before a boundary if and only if its key hash starts with a
smaller number. -/
theorem lt_forkStart_iff (hp : l.Fits p) (hrow : row.length = l.rowSize order)
    (hbegins : l.rangeStart order p <+: row) (hf : f < 2 ^ bits) :
    row < l.forkStart order p role bits f
      ↔ Bytes.leading bits (l.keyAt order role row) < f := by
  have hkey := length_keyAt hrow h.first.mem_roles
  obtain ⟨rest, hsplit⟩ := h.split_row hp hbegins
  calc row < l.forkStart order p role bits f
      ↔ l.rangeStart order p ++ (l.keyAt order role row ++ rest)
        < l.forkStart order p role bits f := by rw [← hsplit]
    _ ↔ l.keyAt order role row ++ rest < leadingBits (l.widths.get role) bits f :=
      Bytes.append_lt_append_iff _
    _ ↔ Bytes.leading bits (l.keyAt order role row) < f :=
      append_lt_leadingBits_iff hkey h.bits_le hf

/-- A row of the range of a scan is in the fork whose number its key hash starts with. -/
theorem contains_forkRange_iff (hp : l.Fits p) (hrow : row.length = l.rowSize order)
    (hwhole : (l.rangeFor order p).contains row = true) (hf : f < 2 ^ bits) :
    (l.forkRange order p role bits f).contains row = true
      ↔ Bytes.leading bits (l.keyAt order role row) = f := by
  have hbegins := isPrefix_of_contains hwhole
  obtain ⟨hlow, hhigh⟩ := contains_iff.1 hwhole
  have hkey := length_keyAt hrow h.first.mem_roles
  have hleading := Bytes.leading_lt (hkey ▸ h.bits_le : bits ≤ 8 * (l.keyAt order role row).length)
  -- The first and the last fork have a boundary of the scan, which all rows of the scan respect.
  have hstart : (l.forkRange order p role bits f).start ≤ row
      ↔ f ≤ Bytes.leading bits (l.keyAt order role row) := by
    by_cases hfirst : f = 0
    · simpa [forkRange, hfirst] using hlow
    · rw [← Std.not_lt, ← Nat.not_lt, ← h.lt_forkStart_iff hp hrow hbegins hf]
      simp [forkRange, hfirst]
  have hstop : row < (l.forkRange order p role bits f).stop
      ↔ Bytes.leading bits (l.keyAt order role row) < f + 1 := by
    by_cases hlast : f + 1 = 2 ^ bits
    · rw [hlast]
      simpa [forkRange, hlast, hleading] using hhigh
    · rw [← h.lt_forkStart_iff hp hrow hbegins (by omega)]
      simp [forkRange, hlast]
  rw [contains_iff, hstart, hstop]
  omega

end Splits

/-- Forks cover a scan.  A pattern that an order answers can be split on the first open role into
any power of two of forks that has no more bits than the key hash of the role.  The forks follow one
another from the start of the range to its stop, none of them empty, so that each byte string of the
range is in exactly one fork and no other byte string is in any.  The row of a statement in the
range is in the fork whose number its key hash of the role starts with. -/
theorem forks_cover (l : Layout) (order : Order) (p : Pattern) (role : Role) (count : Nat)
    (whole : ScanRange) (hwhole : l.range? order p = some whole)
    (hrole : order.roles.find? (fun r => !p.binds r) = some role) (hcount : count.isPowerOfTwo)
    (hbits : count.log2 ≤ 8 * l.widths.get role) :
    ∃ fork : Nat → ScanRange,
      (∀ f < count, l.partitionScan order p role count f none = .ok (some (fork f)))
      ∧ Tiles whole count fork
      ∧ (∀ bytes, whole.contains bytes = true →
        ∃! f, f < count ∧ (fork f).contains bytes = true)
      ∧ (∀ f < count, ∀ bytes, (fork f).contains bytes = true → whole.contains bytes = true)
      ∧ (l.Fits p → ∀ ids, l.Sized ids → ∀ order', whole.contains (l.row order' ids) = true →
        ∀ f < count, ((fork f).contains (l.row order' ids) = true
          ↔ Bytes.leading count.log2 (l.keyAt order role (l.row order' ids)) = f)) := by
  obtain ⟨bits, rfl⟩ := hcount
  rw [Nat.log2_two_pow] at hbits ⊢
  obtain ⟨hleads, rfl⟩ := range?_eq_some_iff.1 hwhole
  have h : l.Splits order p role bits := ⟨hleads, hrole, hbits⟩
  refine ⟨l.forkRange order p role bits, fun f hf => h.partitionScan_eq hf none, h.tiles,
    fun _ hbytes => h.tiles.existsUnique hbytes, fun f hf _ => h.tiles.contains_whole hf, ?_⟩
  intro hp ids hids order' hrow f hf
  obtain ⟨rfl, _⟩ := (contains_row_iff hleads hp hids).1 hrow
  exact h.contains_forkRange_iff hp (hids.length_row order') hrow hf

/-- A row whose key hash begins with the bits 101 is in the fork with the number five of eight. -/
theorem forks_cover_narrow : ∃ fork : Nat → ScanRange,
    (∀ f < 8, narrowLayout.partitionScan .pos greatestPattern .object 8 f none
      = .ok (some (fork f)))
    ∧ (fork 7).stop = [1, 0xFF, 0xFF, 0xFF, 0xFF, 0xFF]
    ∧ (fork 5).contains (narrowLayout.row .pos
      (narrowIds ⟨[0, 0]⟩ ⟨[0xFF, 0xFF]⟩ ⟨[0, 0xB4]⟩)) = true
    ∧ (fork 4).contains (narrowLayout.row .pos
      (narrowIds ⟨[0, 0]⟩ ⟨[0xFF, 0xFF]⟩ ⟨[0, 0xB4]⟩)) = false := by
  have hids : narrowLayout.Sized (narrowIds ⟨[0, 0]⟩ ⟨[0xFF, 0xFF]⟩ ⟨[0, 0xB4]⟩) := by
    intro role id hid
    cases role <;> cases hid <;> rfl
  obtain ⟨fork, hfork, htiles, _, _, hrows⟩ := forks_cover narrowLayout .pos greatestPattern
    .object 8 _ rfl rfl ⟨3, rfl⟩ (by decide +kernel)
  have hrow := hrows fits_greatestPattern _ hids .pos (by decide +kernel)
  refine ⟨fork, hfork, htiles.last.trans (by decide +kernel), ?_, ?_⟩
  · exact (hrow 5 (by decide)).2 (by decide +kernel)
  · rw [Bool.eq_false_iff, Ne, hrow 4 (by decide)]
    decide +kernel

end Layout

end RdfIndex
