import RdfIndex.Proofs.Statement.Range
import RdfIndex.Proofs.Statement.ReadBack

/-!
# Scans are exact

An order answers a pattern if and only if the bound roles come first in it (`Pattern.leads_iff`),
and the order that a pattern chooses does (`Pattern.leads_order`).  A row that is as long as the
rows of an order is in the range of a pattern if and only if it begins with the start of the range
(`contains_rangeFor_iff`): the stop is the start with the greatest bytes after it, one more of them
than any row has.  So a range holds the rows of its own order in which the bound roles have the
bound key hashes, and no others (`range_exact`).
-/

namespace RdfIndex

/-! ## What comes first in a list -/

section Lists

variable {α : Type} {f : α → Bool} {part part' : α → Bytes}

/-- The members that are accepted come first if no later one is accepted. -/
theorem filter_isPrefix_iff {as : List α} :
    as.filter f <+: as ↔ ∀ a ∈ as.dropWhile f, f a = false := by
  induction as with
  | nil => simp
  | cons a as ih =>
    cases ha : f a with
    | true =>
      rw [List.filter_cons_of_pos ha, List.dropWhile_cons_of_pos ha, List.cons_prefix_cons, ih]
      simp
    | false =>
      have hneg : ¬ f a = true := by simp [ha]
      rw [List.filter_cons_of_neg hneg, List.dropWhile_cons_of_neg hneg, List.forall_mem_cons]
      constructor
      · intro hprefix
        have hnone : as.filter f = [] := by
          cases hfilter : as.filter f with
          | nil => rfl
          | cons c later =>
            -- The first accepted member would have to be `a`.
            have hmem : c ∈ as.filter f := hfilter ▸ List.mem_cons_self
            have hc := (List.mem_filter.1 hmem).2
            rw [hfilter] at hprefix
            rw [(List.cons_prefix_cons.1 hprefix).1, ha] at hc
            cases hc
        exact ⟨ha, fun b hb => by simpa using List.filter_eq_nil_iff.1 hnone b hb⟩
      · rintro ⟨_, hall⟩
        rw [List.filter_eq_nil_iff.2 fun b hb => by simp [hall b hb]]
        exact List.nil_prefix

theorem append_isPrefix_append_iff {x y rest tail : Bytes} (h : x.length = y.length) :
    x ++ rest <+: y ++ tail ↔ x = y ∧ rest <+: tail := by
  constructor
  · rintro ⟨t, ht⟩
    rw [List.append_assoc] at ht
    obtain ⟨rfl, rfl⟩ := List.append_inj ht h
    exact ⟨rfl, List.prefix_append rest t⟩
  · rintro ⟨rfl, hprefix⟩
    exact (List.prefix_append_right_inj x).2 hprefix

/-- Parts of the same sizes come first if and only if they are the same one by one. -/
theorem flatMap_isPrefix_iff {as : List α} {rest : Bytes}
    (h : ∀ a ∈ as, (part a).length = (part' a).length) :
    as.flatMap part <+: as.flatMap part' ++ rest ↔ ∀ a ∈ as, part a = part' a := by
  induction as with
  | nil => simp
  | cons a as ih =>
    obtain ⟨ha, has⟩ := List.forall_mem_cons.1 h
    rw [List.flatMap_cons, List.flatMap_cons, List.append_assoc, append_isPrefix_append_iff ha,
      ih has, List.forall_mem_cons]

end Lists

/-! ## Orders that answer a pattern -/

namespace Pattern

variable {p : Pattern} {order : Order} {role : Role}

theorem leads_iff : p.leads order = true
    ↔ order.roles.filter p.binds <+: order.roles
      ∧ (order.hasContext = false → p.context = none) := by
  rw [filter_isPrefix_iff, leads, Bool.and_eq_true, and_comm, List.all_eq_true]
  refine and_congr ?_ ?_
  · simp
  · cases horder : order.hasContext with
    | true => simp
    | false => simp [binds, get?]

/-- The order that a pattern chooses answers it. -/
theorem leads_order (p : Pattern) : p.leads p.order = true := by
  rw [leads, order]
  cases hc : p.binds .context <;> cases hs : p.binds .subject <;>
    cases hp : p.binds .predicate <;> cases ho : p.binds .object <;>
    simp [Order.roles, Order.hasContext, List.dropWhile, hc, hs, hp, ho]

/-- The bound roles are those that come first. -/
theorem mem_takeWhile_of_binds (h : p.leads order = true) (hrole : p.binds role = true) :
    role ∈ order.roles.takeWhile p.binds := by
  rw [leads, Bool.and_eq_true, List.all_eq_true] at h
  have hmem : role ∈ order.roles := by
    by_cases hcontext : role = .context
    · subst hcontext
      exact Order.context_mem_roles (by simpa [hrole] using h.1)
    · exact order.mem_roles hcontext
  rw [← List.takeWhile_append_dropWhile (p := p.binds) (l := order.roles), List.mem_append] at hmem
  refine hmem.resolve_right fun hlater => ?_
  simpa [hrole] using h.2 role hlater

theorem binds_of_mem_takeWhile (h : role ∈ order.roles.takeWhile p.binds) :
    p.binds role = true :=
  List.all_eq_true.1 List.all_takeWhile role h

end Pattern

/-! ## Starts of ranges -/

namespace Layout

variable {l : Layout} {order order' : Order} {p : Pattern} {role : Role} {row : Bytes}
  {ids : StatementIds}

/-- The identifiers that a pattern binds have the size of the layout. -/
def Fits (l : Layout) (p : Pattern) : Prop :=
  ∀ role id, p.get? role = some id → id.bytes.length = l.idSize

/-- The key hash of what a pattern binds a role to. -/
def boundKey (l : Layout) (order : Order) (p : Pattern) (role : Role) : Bytes :=
  match p.get? role with
  | some id => l.keyHash order role id
  | none => []

theorem boundKey_of_get? {id : Identifier} (h : p.get? role = some id) :
    l.boundKey order p role = l.keyHash order role id := by
  rw [boundKey, h]

theorem length_boundKey (hp : l.Fits p) (h : p.binds role = true) :
    (l.boundKey order p role).length = l.widths.get role := by
  obtain ⟨id, hid⟩ := Option.isSome_iff_exists.1 h
  rw [boundKey_of_get? hid, length_keyHash (hp role id hid)]

theorem rangeStart_eq (l : Layout) (order : Order) (p : Pattern) : l.rangeStart order p
    = orderByte order :: (order.roles.takeWhile p.binds).flatMap (l.boundKey order p) :=
  rfl

theorem length_rangeStart (hp : l.Fits p) : (l.rangeStart order p).length
    = 1 + total l.widths.get (order.roles.takeWhile p.binds) := by
  rw [rangeStart_eq, List.length_cons, Nat.add_comm, length_flatMap_roles fun role hmem =>
    length_boundKey hp (Pattern.binds_of_mem_takeWhile hmem)]

/-- A start and the rest of a row make a row. -/
theorem length_rangeStart_add (hp : l.Fits p) (order : Order) :
    (l.rangeStart order p).length + l.tailWidth order p = l.rowSize order := by
  have hsplit := List.takeWhile_append_dropWhile (p := p.binds) (l := order.roles)
  rw [length_rangeStart hp, tailWidth, rowSize, Nat.add_assoc, ← total_append, hsplit]

/-! ## Rows of ranges -/

theorem contains_iff {range : ScanRange} :
    range.contains row = true ↔ range.start ≤ row ∧ row < range.stop := by
  rw [ScanRange.contains, Bool.and_eq_true, Bool.not_eq_true', decide_eq_false_iff_not,
    decide_eq_true_eq, Std.not_lt]

theorem isPrefix_of_contains (h : (l.rangeFor order p).contains row = true) :
    l.rangeStart order p <+: row := by
  obtain ⟨hlow, hhigh⟩ := contains_iff.1 h
  exact Bytes.isPrefix_of_between (Std.not_lt.2 hlow) hhigh

/-- A row of the length of an order's rows is in a range if and only if it has the start. -/
theorem contains_rangeFor_iff (hp : l.Fits p) (hrow : row.length = l.rowSize order) :
    (l.rangeFor order p).contains row = true ↔ l.rangeStart order p <+: row := by
  refine ⟨isPrefix_of_contains, ?_⟩
  rintro ⟨rest, rfl⟩
  have hlength := length_rangeStart_add hp order
  rw [List.length_append] at hrow
  refine contains_iff.2 ⟨Std.not_lt.1 (Bytes.not_append_lt _ _), ?_⟩
  exact (Bytes.append_lt_append_iff _).2 (Bytes.lt_replicate (by omega))

/-- The row of a statement has a start of its order if and only if the bound key hashes are those
of the statement. -/
theorem rangeStart_isPrefix_row_iff (hp : l.Fits p) (h : l.Sized ids) :
    l.rangeStart order p <+: l.row order ids ↔ ∀ role ∈ order.roles.takeWhile p.binds,
      l.boundKey order p role = l.keyHash order role (l.filed ids role) := by
  have hsplit : order.roles.flatMap (fun role => l.keyHash order role (l.filed ids role))
      = (order.roles.takeWhile p.binds).flatMap
          (fun role => l.keyHash order role (l.filed ids role))
        ++ (order.roles.dropWhile p.binds).flatMap
          (fun role => l.keyHash order role (l.filed ids role)) := by
    rw [← List.flatMap_append, List.takeWhile_append_dropWhile]
  rw [rangeStart_eq, row, List.cons_prefix_cons, hsplit, flatMap_isPrefix_iff]
  · exact ⟨And.right, fun hkeys => ⟨rfl, hkeys⟩⟩
  · intro role hmem
    rw [length_boundKey hp (Pattern.binds_of_mem_takeWhile hmem), h.length_keyHash]

/-- The range of a pattern holds the rows of its order that have the bound key hashes. -/
theorem contains_row_iff (hleads : p.leads order = true) (hp : l.Fits p) (h : l.Sized ids) :
    (l.rangeFor order p).contains (l.row order' ids) = true
      ↔ order' = order ∧ ∀ role id, p.get? role = some id →
        l.keyAt order role (l.row order' ids) = l.keyHash order role id := by
  have hkey : ∀ role id, p.get? role = some id → role ∈ order.roles.takeWhile p.binds := by
    intro role id hid
    exact Pattern.mem_takeWhile_of_binds hleads (Option.isSome_iff_exists.2 ⟨id, hid⟩)
  constructor
  · intro hcontains
    have hprefix := isPrefix_of_contains hcontains
    obtain rfl := orderByte_inj (List.cons_prefix_cons.1 hprefix).1
    refine ⟨rfl, fun role id hid => ?_⟩
    have hmem := hkey role id hid
    rw [keyAt_row h (List.takeWhile_subset _ hmem), ← boundKey_of_get? hid]
    exact ((rangeStart_isPrefix_row_iff hp h).1 hprefix role hmem).symm
  · rintro ⟨rfl, hkeys⟩
    rw [contains_rangeFor_iff hp (h.length_row order'), rangeStart_isPrefix_row_iff hp h]
    intro role hmem
    obtain ⟨id, hid⟩ := Option.isSome_iff_exists.1 (Pattern.binds_of_mem_takeWhile hmem)
    rw [boundKey_of_get? hid, ← hkeys role id hid, keyAt_row h (List.takeWhile_subset _ hmem)]

theorem range?_eq_some_iff {range : ScanRange} : l.range? order p = some range
    ↔ p.leads order = true ∧ l.rangeFor order p = range := by
  rw [range?]
  cases p.leads order <;> simp

/-- Scans are exact.  A pattern has a range in an order if and only if the bound roles come first
in the order, the context only where the order has it.  The range holds the rows of the order that
have the key hashes of all bound identifiers, and of no other order any.  The range that a pattern
is answered by is that of the order that it chooses. -/
theorem range_exact (l : Layout) (order : Order) (p : Pattern) :
    ((l.range? order p).isSome = true ↔ order.roles.filter p.binds <+: order.roles
      ∧ (order.hasContext = false → p.context = none))
    ∧ (∀ range, l.range? order p = some range → l.Fits p → ∀ ids, l.Sized ids → ∀ order',
      (range.contains (l.row order' ids) = true
        ↔ order' = order ∧ ∀ role id, p.get? role = some id →
          l.keyAt order role (l.row order' ids) = l.keyHash order role id))
    ∧ l.range? p.order p = some (l.scan p) := by
  refine ⟨?_, ?_, ?_⟩
  · rw [← Pattern.leads_iff, range?]
    cases p.leads order <;> simp
  · intro range hrange hp ids h order'
    obtain ⟨hleads, rfl⟩ := range?_eq_some_iff.1 hrange
    exact contains_row_iff hleads hp h
  · exact range?_eq_some_iff.2 ⟨p.leads_order, rfl⟩

/-- A pattern that binds the predicate to the greatest identifier. -/
def greatestPattern : Pattern := ⟨none, some ⟨[0xFF, 0xFF]⟩, none, none⟩

theorem fits_greatestPattern : narrowLayout.Fits greatestPattern := by
  intro role id hid
  cases role with
  | predicate =>
    cases hid
    rfl
  | subject => cases hid
  | object => cases hid
  | context => cases hid

/-- A statement of three identifiers in the default graph. -/
def narrowIds (subject predicate object : Identifier) : StatementIds :=
  ⟨subject, predicate, object, none⟩

/-- The greatest row of an order is in the range of its greatest key, the row of a smaller key and
that of another order are not. -/
theorem range_exact_narrow :
    (narrowLayout.range? .spo greatestPattern).isSome = false
    ∧ ∃ range, narrowLayout.range? .pos greatestPattern = some range
      ∧ range.contains (narrowLayout.row .pos
        (narrowIds ⟨[0xFF, 0xFF]⟩ ⟨[0xFF, 0xFF]⟩ ⟨[0xFF, 0xFF]⟩)) = true
      ∧ range.contains (narrowLayout.row .pos
        (narrowIds ⟨[0xFF, 0xFF]⟩ ⟨[0xFF, 0xFE]⟩ ⟨[0xFF, 0xFF]⟩)) = false
      ∧ range.contains (narrowLayout.row .osp
        (narrowIds ⟨[0xFF, 0xFF]⟩ ⟨[0xFF, 0xFF]⟩ ⟨[0xFF, 0xFF]⟩)) = false := by
  have hsized : ∀ b : UInt8, narrowLayout.Sized
      (narrowIds ⟨[0xFF, 0xFF]⟩ ⟨[0xFF, b]⟩ ⟨[0xFF, 0xFF]⟩) := by
    intro b role id hid
    cases role <;> cases hid <;> rfl
  obtain ⟨hspo, _, _⟩ := range_exact narrowLayout .spo greatestPattern
  obtain ⟨_, hpos, hscan⟩ := range_exact narrowLayout .pos greatestPattern
  refine ⟨?_, _, hscan, ?_, ?_, ?_⟩
  · rw [Bool.eq_false_iff, Ne, hspo]
    decide
  · refine (hpos _ hscan fits_greatestPattern _ (hsized 0xFF) .pos).2 ⟨rfl, fun role id hid => ?_⟩
    cases role <;> cases hid
    rfl
  · rw [Bool.eq_false_iff, Ne, hpos _ hscan fits_greatestPattern _ (hsized 0xFE) .pos]
    rintro ⟨_, hkey⟩
    exact absurd (hkey .predicate _ rfl) (by decide)
  · rw [Bool.eq_false_iff, Ne, hpos _ hscan fits_greatestPattern _ (hsized 0xFF) .osp]
    rintro ⟨horder, _⟩
    cases horder

end Layout

end RdfIndex
