import RdfIndex.Proofs.Encoding.Checked
import RdfIndex.Proofs.Statement.ReadBack
import RdfIndex.Statement.Checked

/-!
# A machine reads cells without a fault

Reading a cell with the numbers of a machine does what reading a cell does (`readCellChecked_eq`):
the sizes of rows and of what they leave are small numbers (`sizesChecked_eq`), the roles in turn
give the identifiers at their places (`recoverIds_eq`), and the members of the value are decoded as
they are read (`mirrors_quadChecked`).

The pass over the roles keeps that both offsets are the total widths of the roles that were passed.
So what is taken is inside the row and the qualifier, whose sizes were checked before.
-/

namespace RdfIndex

theorem Algorithm.digestSize_le (a : Algorithm) : a.digestSize ≤ 64 := by
  cases a <;> decide

namespace Machine

theorem unsigned_eq {n : Nat} (h : n < positionLimit) : unsigned 8 n = .ok n := if_pos h

theorem remainder_eq {a b : Nat} (h : b ≠ 0) : remainder a b = .ok (a % b) := if_neg h

/-- A sum that is in range has no partial sum that is not. -/
theorem sum_eq {α : Type} (f : α → Nat) {as : List α} (h : total f as < positionLimit) :
    sum 8 (as.map f) = .ok (total f as) := by
  have hfrom : ∀ {as : List α} {start : Nat}, start + total f as < positionLimit →
      (as.map f).foldlM (fun sum n => unsigned 8 (sum + n)) start
        = .ok (start + total f as) := by
    intro as
    induction as with
    | nil => exact fun _ => rfl
    | cons a as ih =>
      intro start h
      rw [total_cons, ← Nat.add_assoc] at h
      rw [List.map_cons, List.foldlM_cons, unsigned_eq (by omega), ok_bind, ih h, total_cons,
        Nat.add_assoc]
  rw [sum, hfrom (by omega), Nat.zero_add]

theorem rotateRight_eq {α : Type} {as : List α} {places : Nat} (h : places ≤ as.length) :
    rotateRight as places
      = .ok (as.drop (as.length - places) ++ as.take (as.length - places)) := by
  have hsplit : as.length - places ≤ as.length := Nat.sub_le _ _
  rw [rotateRight, if_neg (Nat.not_lt.2 h)]
  simp only [Checked.slice_eq hsplit (Nat.le_refl _), Checked.slice_eq (Nat.zero_le _) hsplit,
    ok_bind, List.take_length, List.drop_zero]
  rfl

end Machine

theorem Checked.take_eq {region : Bytes} {offset count : Nat} (h : offset + count ≤ region.length)
    (hlimit : offset + count < positionLimit) :
    Checked.take count region offset
      = .ok ((region.drop offset).take count, offset + count) := by
  rw [Checked.take, if_neg (Nat.not_le.2 hlimit), if_neg (Nat.not_lt.2 h),
    slice_eq (Nat.le_add_right offset count) h, List.drop_take, Nat.add_sub_cancel_left]
  rfl

theorem Order.length_roles_le (order : Order) : order.roles.length ≤ 4 := by
  cases order <;> decide

theorem Order.nodup_roles (order : Order) : order.roles.Nodup := by
  cases order <;> decide

theorem Order.hasContext_of_mem {order : Order} (h : Role.context ∈ order.roles) :
    order.hasContext = true := by
  cases order <;> first | rfl | exact absurd h (by decide)

/-- What is kept for each of some roles is found for these roles and for no others. -/
theorem lookup_roles {α : Type} (f : Role → α) (roles : List Role) (role : Role) :
    (roles.map fun role => (role, f role)).lookup role
      = if role ∈ roles then some (f role) else none := by
  split
  · next hmem => exact List.lookup_graph f hmem
  · next hnot =>
    rw [List.lookup_eq_none_iff]
    intro p hp
    obtain ⟨other, hother, rfl⟩ := List.mem_map.1 hp
    exact bne_iff_ne.2 fun heq => hnot (heq ▸ hother)

namespace Layout

variable {l : Layout} {order : Order} {role : Role} {row qualifier value : Bytes}

/-- The roles before a role are those that were passed. -/
theorem rolesBefore_eq {before after : List Role} (h : order.roles = before ++ role :: after) :
    rolesBefore order role = before := by
  have hnodup := h ▸ order.nodup_roles
  have hpassed : ∀ r ∈ before, (r != role) = true := fun r hr =>
    bne_iff_ne.2 ((List.nodup_append.1 hnodup).2.2 r hr role List.mem_cons_self)
  rw [rolesBefore, h, List.takeWhile_append_of_pos hpassed,
    List.takeWhile_cons_of_neg (by simp), List.append_nil]

/-! ## Sizes -/

theorem idSize_le (l : Layout) : l.idSize ≤ 64 :=
  Nat.le_trans l.factory.config.size_le l.factory.config.algorithm.digestSize_le

/-- What the key hashes of some roles take and leave are all bytes of their identifiers. -/
theorem total_widths_add (l : Layout) (roles : List Role) :
    total l.widths.get roles + total l.remainderWidth roles = roles.length * l.idSize := by
  induction roles with
  | nil => simp
  | cons role roles ih =>
    have hwidth := l.width_bounds role
    rw [total_cons, total_cons, List.length_cons, Nat.succ_mul, ← ih, remainderWidth]
    omega

/-- The identifiers of an order have few bytes. -/
theorem rowSize_add_remaindersSize (l : Layout) (order : Order) :
    l.rowSize order + l.remaindersSize order = order.roles.length * l.idSize + 1
      ∧ order.roles.length * l.idSize ≤ 256 := by
  have htotal := l.total_widths_add order.roles
  rw [rowSize, remaindersSize]
  exact ⟨by omega, Nat.mul_le_mul order.length_roles_le l.idSize_le⟩

/-- All sums and products are in range, and what is subtracted is not more than what it is
subtracted from. -/
theorem sizesChecked_eq (l : Layout) (order : Order) :
    l.sizesChecked order = .ok (l.rowSize order, l.remaindersSize order) := by
  obtain ⟨htotal, hle⟩ := l.rowSize_add_remaindersSize order
  have hrow : l.rowSize order = 1 + total l.widths.get order.roles := rfl
  have hdifference : Machine.difference (order.roles.length * l.idSize + 1) (l.rowSize order)
      = .ok (l.remaindersSize order) := by
    rw [Machine.difference, if_pos (by omega)]
    exact congrArg Except.ok (by omega)
  rw [sizesChecked, Machine.sum_eq _ (by rw [positionLimit]; omega), ok_bind,
    Machine.unsigned_eq (by rw [positionLimit]; omega), ok_bind,
    Machine.unsigned_eq (by rw [positionLimit]; omega), ok_bind,
    Machine.unsigned_eq (by rw [positionLimit]; omega), ok_bind, ← hrow, hdifference]
  rfl

theorem endsWithContext_eq (l : Layout) (order : Order) (qualifier : Bytes) :
    l.endsWithContext order qualifier (l.remaindersSize order)
      = if l.fitsQualifier order qualifier
        then .ok (decide (qualifier.length ≠ l.remaindersSize order))
        else .error (.failed (.decode (.qualifier order qualifier.length))) := by
  obtain ⟨htotal, hle⟩ := l.rowSize_add_remaindersSize order
  have hid := l.idSize_le
  rw [endsWithContext, fitsQualifier, Machine.unsigned_eq (by rw [positionLimit]; omega)]
  by_cases hshort : qualifier.length = l.remaindersSize order
  · simp only [hshort, if_true, beq_self_eq_true, Bool.true_or, ne_eq, not_true_eq_false,
      decide_false]
    rfl
  · cases horder : order.hasContext with
    | true => simp [hshort, throw, throwThe, MonadExceptOf.throw, bind, Except.bind]
    | false =>
      by_cases hlong : qualifier.length = l.remaindersSize order + l.idSize
      · have hpos := l.idSize_pos
        simp [hlong, Nat.ne_of_gt hpos, bind, Except.bind, pure, Except.pure]
      · simp [hshort, hlong, throw, throwThe, MonadExceptOf.throw, bind, Except.bind]

/-! ## Identifiers -/

theorem recoverChecked_eq (l : Layout) (order : Order) (role : Role) (key remainder : Bytes) :
    l.recoverChecked order role key remainder
      = Stop.ofDecode (l.recover order role key remainder) := by
  have hpos := l.idSize_pos
  rw [recoverChecked, recover, ← List.length_append]
  by_cases hsize : (key ++ remainder).length = l.idSize
  · have hplaces : (l.shift? order role).getD 0 % (key ++ remainder).length
        ≤ (key ++ remainder).length := Nat.le_of_lt (Nat.mod_lt _ (hsize ▸ hpos))
    have hjoin : (l.join order role key remainder).bytes
        = (key ++ remainder).drop ((key ++ remainder).length
            - (l.shift? order role).getD 0 % (key ++ remainder).length)
          ++ (key ++ remainder).take ((key ++ remainder).length
            - (l.shift? order role).getD 0 % (key ++ remainder).length) := rfl
    have hlength : (l.join order role key remainder).bytes.length = l.factory.config.size :=
      (length_rotateRight _ _).trans hsize
    rw [if_pos hsize]
    simp only [hsize, ne_eq, not_true_eq_false, if_false]
    rw [← hsize, Machine.remainder_eq (by omega), ok_bind, Machine.rotateRight_eq hplaces, ok_bind,
      ← hjoin, IdFactory.ofBytes, if_pos hlength]
  · rw [if_neg hsize]
    simp only [ne_eq, hsize, not_false_eq_true, if_true]
    rfl

/-- The parts of a role make its identifier. -/
theorem recoverChecked_parts (hrow : row.length = l.rowSize order)
    (hqualifier : l.remaindersSize order ≤ qualifier.length) (hrole : role ∈ order.roles) :
    l.recoverChecked order role (l.keyAt order role row) (l.remainderAt order role qualifier)
      = .ok (l.idAt order role row qualifier) := by
  have hwidth := l.width_bounds role
  rw [recoverChecked_eq, recover, length_keyAt hrow hrole, length_remainderAt hqualifier hrole,
    remainderWidth, if_pos (by omega)]
  rfl

/-- The roles in turn give their identifiers, from the offsets that the roles before them leave. -/
theorem recoverIds_eq (hrow : row.length = l.rowSize order)
    (hqualifier : l.remaindersSize order ≤ qualifier.length) {roles : List Role} :
    ∀ {before : List Role}, order.roles = before ++ roles →
      l.recoverIds order (row.drop 1) qualifier roles (total l.widths.get before)
          (total l.remainderWidth before)
        = .ok (roles.map fun role => (role, l.idAt order role row qualifier),
          l.remaindersSize order) := by
  induction roles with
  | nil =>
    intro before h
    rw [remaindersSize, h, List.append_nil]
    rfl
  | cons role roles ih =>
    intro before h
    obtain ⟨hsum, hle⟩ := l.rowSize_add_remaindersSize order
    have hwidth := l.width_bounds role
    have hrole : role ∈ order.roles := h ▸ List.mem_append_right _ List.mem_cons_self
    have hbefore := rolesBefore_eq h
    have hkeys : total l.widths.get before + l.widths.get role
        ≤ total l.widths.get order.roles := by
      rw [h, total_append, total_cons]
      omega
    have hleft : total l.remainderWidth before + l.remainderWidth role
        ≤ l.remaindersSize order := by
      rw [remaindersSize, h, total_append, total_cons]
      omega
    have hkey : Checked.take (l.widths.get role) (row.drop 1) (total l.widths.get before)
        = .ok (l.keyAt order role row, total l.widths.get (before ++ [role])) := by
      rw [rowSize] at hrow hsum
      rw [Checked.take_eq (by rw [List.length_drop]; omega) (by rw [positionLimit]; omega), keyAt,
        hbefore, List.drop_drop, total_append, total_cons, total_nil, Nat.add_zero]
    have hremainder : Checked.take (l.remainderWidth role) qualifier
          (total l.remainderWidth before)
        = .ok (l.remainderAt order role qualifier, total l.remainderWidth (before ++ [role])) := by
      rw [Checked.take_eq (by omega) (by rw [positionLimit]; omega), remainderAt, hbefore,
        total_append, total_cons, total_nil, Nat.add_zero]
    have hdifference : Machine.difference l.idSize (l.widths.get role)
        = .ok (l.remainderWidth role) := if_pos hwidth.2
    have hsplit : order.roles = (before ++ [role]) ++ roles := by
      rw [h, List.append_assoc]
      rfl
    have hlater := ih hsplit
    rw [recoverIds, hkey, ok_bind]
    simp only [hdifference, ok_bind, hremainder, recoverChecked_parts hrow hqualifier hrole, hlater]
    rfl

theorem contextChecked_eq (hfits : l.fitsQualifier order qualifier = true) :
    l.contextChecked (decide (qualifier.length ≠ l.remaindersSize order))
        (order.roles.map fun role => (role, l.idAt order role row qualifier)) qualifier
        (l.remaindersSize order)
      = .ok (l.contextAt order row qualifier) := by
  have hpos := l.idSize_pos
  simp only [fitsQualifier, Bool.or_eq_true, beq_iff_eq, Bool.and_eq_true,
    Bool.not_eq_true'] at hfits
  rw [contextChecked, contextAt]
  by_cases hshort : qualifier.length = l.remaindersSize order
  · rw [if_neg (by simpa using hshort), lookup_roles]
    cases horder : order.hasContext with
    | true =>
      rw [if_pos (Order.context_mem_roles horder)]
      by_cases hdefault : l.idAt order .context row qualifier = l.defaultContext
      · simp [hdefault, pure, Except.pure, Option.filter]
      · simp [hdefault, pure, Except.pure, Option.filter]
    | false =>
      have hnot : Role.context ∉ order.roles := by
        intro hmem
        rw [Order.hasContext_of_mem hmem] at horder
        cases horder
      rw [if_neg hnot, List.drop_eq_nil_of_le (Nat.le_of_eq hshort)]
      rfl
  · obtain ⟨horder, hlong⟩ := hfits.resolve_left hshort
    have hlength : (qualifier.drop (l.remaindersSize order)).length = l.factory.config.size := by
      rw [List.length_drop, hlong, Nat.add_sub_cancel_left]
      rfl
    rw [if_pos (by simpa using hshort), Checked.rest, Checked.slice_eq (by omega) (Nat.le_refl _),
      List.take_length, horder]
    simp only [bind, Except.bind, pure, Except.pure, IdFactory.ofBytes, hlength, if_true,
      Bool.false_eq_true, if_false]
    cases hrest : qualifier.drop (l.remaindersSize order) with
    | nil =>
      rw [hrest] at hlength
      exact absurd hlength (Nat.ne_of_lt hpos)
    | cons b rest => rfl

theorem readIdsChecked_eq (l : Layout) (order : Order) (row qualifier : Bytes) :
    l.readIdsChecked order row qualifier = Stop.ofDecode (l.readIds order row qualifier) := by
  rw [readIdsChecked, sizesChecked_eq, ok_bind, readIds]
  by_cases hrow : row.length ≠ l.rowSize order ∨ row.head? ≠ some (orderByte order)
  · simp only [if_pos hrow]
    rfl
  · simp only [if_neg hrow, endsWithContext_eq]
    cases hfits : l.fitsQualifier order qualifier with
    | false => rfl
    | true =>
      rw [not_or, Decidable.not_not, Decidable.not_not] at hrow
      have hsize : 1 ≤ row.length := by
        rw [hrow.1, rowSize]
        omega
      have hqualifier : l.remaindersSize order ≤ qualifier.length := by
        simp only [fitsQualifier, Bool.or_eq_true, beq_iff_eq, Bool.and_eq_true] at hfits
        omega
      have hids := recoverIds_eq hrow.1 hqualifier (List.nil_append order.roles).symm
      rw [total_nil, total_nil] at hids
      have hfound : ∀ role : Role, role ≠ .context →
          found order (order.roles.map fun role => (role, l.idAt order role row qualifier)) role
            = .ok (l.idAt order role row qualifier) := by
        intro role hne
        rw [found, lookup_roles, if_pos (order.mem_roles hne)]
      have hsubject := hfound .subject (by decide)
      have hpredicate := hfound .predicate (by decide)
      have hobject := hfound .object (by decide)
      simp only [if_true, ok_bind, Checked.slice_eq hsize (Nat.le_refl _), List.take_length, hids,
        contextChecked_eq hfits, hsubject, hpredicate, hobject]
      rfl

/-! ## Cells -/

open Checked

theorem valueChecked_eq (l : Layout) {bytes : Bytes} (hbytes : bytes.length < positionLimit) :
    l.valueChecked bytes = Stop.ofDecode (l.factory.codec.readValue bytes) := by
  rw [valueChecked, Codec.decodeChecked_eq _ hbytes, Codec.readValue_eq_decode]
  cases l.factory.codec.decode bytes 0 <;> rfl

theorem mirrors_memberChecked {offset : Nat} (h : Inside value offset) (l : Layout) :
    Mirrors value offset l.memberChecked l.readMember := by
  refine (mirrors_withLength h).bind fun bytes next hbytes h => ?_
  have hlt := Nat.lt_trans (Checked.length_of_withLength hbytes).1 h.length_lt
  exact mirrors_step h (l.valueChecked_eq hlt)

theorem mirrors_graphChecked {offset : Nat} (h : Inside value offset) (l : Layout) :
    Mirrors value offset l.graphChecked l.readContext := by
  have hlength : (value.drop offset).length < positionLimit := by
    have hlt := h.length_lt
    rw [List.length_drop]
    omega
  refine (mirrors_rest h).bind fun bytes next hbytes h => ?_
  obtain rfl : value.drop offset = bytes := Except.ok.inj (Prod.mk.inj hbytes).1
  cases hrest : value.drop offset with
  | nil => exact mirrors_pure h none
  | cons b rest =>
    rw [hrest] at hlength
    exact (mirrors_step h (l.valueChecked_eq hlength)).ret some

theorem mirrors_quadChecked {offset : Nat} (h : Inside value offset) (l : Layout) :
    Mirrors value offset l.quadChecked l.readQuad := by
  refine (mirrors_memberChecked h l).bind fun subject _ _ h => ?_
  refine (mirrors_memberChecked h l).bind fun predicate _ _ h => ?_
  refine (mirrors_memberChecked h l).bind fun object _ _ h => ?_
  exact (mirrors_graphChecked h l).ret (Quad.mk subject predicate object)

/-- Reading a cell with the numbers of a machine does what reading a cell does. -/
theorem readCellChecked_eq (l : Layout) (order : Order) (row qualifier : Bytes) {value : Bytes}
    (hvalue : value.length < positionLimit) :
    l.readCellChecked order row qualifier value
      = Stop.ofDecode (l.readCell order row qualifier value) := by
  rw [readCellChecked, readIdsChecked_eq, readCell]
  cases l.readIds order row qualifier with
  | error e => rfl
  | ok ids =>
    have hquad := mirrors_quadChecked (⟨Nat.zero_le _, hvalue⟩ : Inside value 0) l
    rw [Mirrors, show Cursor.within value 0 = .start value from rfl] at hquad
    show (l.quadChecked value 0 >>= _) = Stop.ofDecode ((l.readQuad (.start value)).1 >>= _)
    generalize l.readQuad (.start value) = outcome at hquad ⊢
    generalize l.quadChecked value 0 = checked at hquad ⊢
    cases hquad with
    | refused e c => rfl
    | read quad =>
      by_cases hcontext : quad.context.isSome = ids.context.isSome
      · simp only [ok_bind, hcontext, ne_eq, not_true_eq_false, if_false, if_true]
        rfl
      · simp only [ok_bind, hcontext, ne_eq, not_false_eq_true, if_true, if_false]
        rfl

end Layout

end RdfIndex
