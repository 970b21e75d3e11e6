import RdfIndex.Proofs.Encoding.RoundTrip
import RdfIndex.Proofs.Results
import RdfIndex.Proofs.Statement.Parts

/-!
# Cells read back

The row and the qualifier of a statement give its identifiers back, and the value gives its terms.
The one thing that is not told apart is a context in an order with context: a named graph whose
identifier is the one under which the default graph is filed is taken for the default graph
(`seenContext`).
-/

namespace RdfIndex

open Reader (Reads ReadsAll reads_withLength readsAll_rest)

namespace Layout

variable {l : Layout} {order : Order} {role : Role} {ids ids' : StatementIds}

/-! ## Rows and qualifiers -/

/-- The identifiers have the size of the layout. -/
def Sized (l : Layout) (ids : StatementIds) : Prop :=
  ∀ role id, ids.get? role = some id → id.bytes.length = l.idSize

/-- The context as a cell tells it.  An order with context tells the default graph only by its
identifier. -/
def seenContext (l : Layout) (order : Order) (ids : StatementIds) : Option Identifier :=
  if order.hasContext = true ∧ ids.context = some l.defaultContext then none else ids.context

theorem Sized.filed (h : l.Sized ids) (role : Role) :
    (l.filed ids role).bytes.length = l.idSize := by
  rw [Layout.filed]
  cases hget : ids.get? role with
  | none => exact l.length_defaultContext
  | some id => exact h role id hget

theorem Sized.length_keyHash (h : l.Sized ids) (order : Order) (role : Role) :
    (l.keyHash order role (l.filed ids role)).length = l.widths.get role :=
  Layout.length_keyHash (h.filed role)

theorem Sized.length_remainder (h : l.Sized ids) (order : Order) (role : Role) :
    (l.remainder order role (l.filed ids role)).length = l.remainderWidth role :=
  Layout.length_remainder (h.filed role)

theorem Sized.length_row (h : l.Sized ids) (order : Order) :
    (l.row order ids).length = l.rowSize order := by
  rw [row, List.length_cons, length_flatMap_roles fun role _ => h.length_keyHash order role,
    rowSize]
  omega

theorem Sized.length_remainders (h : l.Sized ids) (order : Order) :
    (l.remainders order ids).length = l.remaindersSize order :=
  length_flatMap_roles fun role _ => h.length_remainder order role

theorem keyAt_row (h : l.Sized ids) (hrole : role ∈ order.roles) :
    l.keyAt order role (l.row order ids) = l.keyHash order role (l.filed ids role) := by
  have hpart := part_of_flatMap [] (fun r _ => h.length_keyHash order r) hrole
  rw [List.append_nil] at hpart
  rw [keyAt, row, Nat.add_comm 1, List.drop_succ_cons]
  exact hpart

theorem remainderAt_qualifier (h : l.Sized ids) (hrole : role ∈ order.roles) :
    l.remainderAt order role (l.qualifier order ids)
      = l.remainder order role (l.filed ids role) :=
  part_of_flatMap _ (fun r _ => h.length_remainder order r) hrole

/-- The row and the qualifier tell the identifier under which a role is filed. -/
theorem idAt_row_qualifier (h : l.Sized ids) (hrole : role ∈ order.roles) :
    l.idAt order role (l.row order ids) (l.qualifier order ids) = l.filed ids role := by
  rw [idAt, keyAt_row h hrole, remainderAt_qualifier h hrole, join_keyHash_remainder]

theorem contextAt_row_qualifier (h : l.Sized ids) :
    l.contextAt order (l.row order ids) (l.qualifier order ids) = l.seenContext order ids := by
  rw [contextAt, seenContext]
  cases horder : order.hasContext with
  | true =>
    simp only [if_true, idAt_row_qualifier h (Order.context_mem_roles horder), true_and]
    cases hcontext : ids.context with
    | none =>
      have hfiled : l.filed ids .context = l.defaultContext := by
        rw [filed, StatementIds.get?, hcontext]
        rfl
      rw [if_pos hfiled, ite_self]
    | some id =>
      have hfiled : l.filed ids .context = id := by
        rw [filed, StatementIds.get?, hcontext]
        rfl
      simp only [hfiled, Option.some.injEq]
  | false =>
    have hdrop : (l.qualifier order ids).drop (l.remaindersSize order)
        = (ids.context.map Identifier.bytes).getD [] := by
      rw [qualifier, ← h.length_remainders order, List.drop_left, horder]
      rfl
    simp only [Bool.false_eq_true, if_false, false_and, hdrop]
    cases hcontext : ids.context with
    | none => rfl
    | some id =>
      have hlength : id.bytes.length = l.idSize := h .context id hcontext
      have hpos := l.idSize_pos
      cases hbytes : id.bytes with
      | nil =>
        rw [hbytes] at hlength
        exact absurd hlength (Nat.ne_of_lt hpos)
      | cons b rest =>
        simp only [Option.map_some, Option.getD_some, hbytes]
        rw [← hbytes]

theorem fitsQualifier_qualifier (h : l.Sized ids) :
    l.fitsQualifier order (l.qualifier order ids) = true := by
  rw [fitsQualifier, qualifier, List.length_append, h.length_remainders]
  cases horder : order.hasContext with
  | true => simp
  | false =>
    cases hcontext : ids.context with
    | none => simp
    | some id => simp [h .context id hcontext]

/-- The row and the qualifier of a statement are read as its identifiers, but for the context. -/
theorem readIds_row_qualifier (order : Order) (h : l.Sized ids) :
    l.readIds order (l.row order ids) (l.qualifier order ids)
      = .ok { ids with context := l.seenContext order ids } := by
  have hfiled : ∀ role : Role, role ≠ .context → l.idAt order role (l.row order ids)
      (l.qualifier order ids) = l.filed ids role :=
    fun _ hne => idAt_row_qualifier h (order.mem_roles hne)
  have hsubject := hfiled .subject nofun
  have hpredicate := hfiled .predicate nofun
  have hobject := hfiled .object nofun
  have hrow : ¬ ((l.row order ids).length ≠ l.rowSize order
      ∨ (l.row order ids).head? ≠ some (orderByte order)) := by
    rw [h.length_row]
    simp [row]
  rw [readIds, if_neg hrow, fitsQualifier_qualifier h, hsubject, hpredicate, hobject,
    contextAt_row_qualifier h]
  rfl

theorem orderByte_inj {order order' : Order} (h : orderByte order = orderByte order') :
    order = order' := by
  cases order <;> cases order' <;> first | rfl | exact absurd h (by decide)

/-- Rows of different orders are different. -/
theorem order_of_row_eq {order order' : Order} (h : l.row order ids = l.row order' ids') :
    order = order' :=
  orderByte_inj (List.cons.inj h).1

/-- Statements in the same place have the same identifiers, but for the context. -/
theorem eq_of_place_eq (h : l.Sized ids) (h' : l.Sized ids')
    (hrow : l.row order ids = l.row order ids')
    (hqual : l.qualifier order ids = l.qualifier order ids') :
    { ids with context := l.seenContext order ids }
      = { ids' with context := l.seenContext order ids' } := by
  have hread := readIds_row_qualifier order h
  rw [hrow, hqual, readIds_row_qualifier order h'] at hread
  exact (Except.ok.inj hread).symm

/-! ## Terms -/

variable {q : Quad} {e : EncodedQuad}

/-- The encoded terms of a statement are those of its members. -/
structure EncodesTo (l : Layout) (q : Quad) (e : EncodedQuad) : Prop where
  subject : l.factory.codec.encode q.subject = .ok e.subject
  predicate : l.factory.codec.encode q.predicate = .ok e.predicate
  object : l.factory.codec.encode q.object = .ok e.object
  context : (q.context = none ∧ e.context = none)
    ∨ ∃ g c, q.context = some g ∧ l.factory.codec.encode g = .ok c ∧ e.context = some c

theorem encodesTo_of_encodeTerms (h : l.encodeTerms q = .ok e) : l.EncodesTo q.normalize e := by
  obtain ⟨subject, hsubject, h⟩ := ok_of_bind h
  obtain ⟨predicate, hpredicate, h⟩ := ok_of_bind h
  obtain ⟨object, hobject, h⟩ := ok_of_bind h
  obtain ⟨context, hcontext, h⟩ := ok_of_bind h
  cases h
  exact ⟨hsubject, hpredicate, hobject, ok_of_mapM hcontext⟩

theorem sized_idsOf (l : Layout) (e : EncodedQuad) : l.Sized (l.idsOf e) := by
  intro role id h
  cases role with
  | subject =>
    cases h
    exact l.factory.length_derive _
  | predicate =>
    cases h
    exact l.factory.length_derive _
  | object =>
    cases h
    exact l.factory.length_derive _
  | context =>
    obtain ⟨c, _, rfl⟩ := Option.map_eq_some_iff.1 h
    exact l.factory.length_derive _

theorem isSome_context_idsOf (h : l.EncodesTo q e) :
    (l.idsOf e).context.isSome = q.context.isSome := by
  rcases h.context with ⟨hq, he⟩ | ⟨g, c, hq, _, he⟩
  · rw [idsOf, hq, he]
    rfl
  · rw [idsOf, hq, he]
    rfl

/-! ## Values -/

theorem reads_readMember {t : Term} {m : Encoded} (h : l.factory.codec.encode t = .ok m) :
    Reads l.readMember (Varint.withLength m.bytes) t := by
  intro offset rest hlimit
  have hlength := Varint.length_lt_withLength m.bytes
  rw [readMember, Reader.bind_ok (reads_withLength m.bytes offset rest hlimit),
    Codec.readValue_bytes h (by omega)]
  rfl

theorem readsAll_readContext (h : l.EncodesTo q e) :
    ReadsAll l.readContext ((e.context.map Encoded.bytes).getD []) q.context := by
  intro offset hlimit
  rw [readContext, Reader.bind_ok (readsAll_rest _ offset hlimit)]
  rcases h.context with ⟨hq, he⟩ | ⟨g, c, hq, hencode, he⟩
  · rw [hq, he]
    rfl
  · rw [he] at hlimit ⊢
    have hread := Codec.readValue_bytes hencode
      (Nat.lt_of_le_of_lt (Nat.le_add_left _ offset) hlimit)
    rw [hq]
    show (Reader.check (l.factory.codec.readValue c.bytes) >>= _) _ = _
    rw [hread]
    rfl

/-- The value of a statement is read as its terms. -/
theorem readsAll_readQuad (h : l.EncodesTo q e) : ReadsAll l.readQuad e.valueBytes q := by
  rw [EncodedQuad.valueBytes, List.append_assoc, List.append_assoc]
  refine ReadsAll.bind (reads_readMember h.subject) ?_
  refine ReadsAll.bind (reads_readMember h.predicate) ?_
  refine ReadsAll.bind (reads_readMember h.object) ?_
  exact (readsAll_readContext h).ret

/-! ## Cells -/

/-- A statement is in a named graph that has the identifier of the default graph. -/
def clashes (l : Layout) (ids : StatementIds) : Bool := ids.context == some l.defaultContext

theorem clashes_iff : l.clashes ids = true ↔ ids.context = some l.defaultContext := beq_iff_eq

theorem seenContext_of_clash (h : (order.hasContext && l.clashes ids) = true) :
    l.seenContext order ids = none := by
  rw [Bool.and_eq_true, clashes_iff] at h
  exact if_pos h

theorem seenContext_of_no_clash (h : ¬ (order.hasContext && l.clashes ids) = true) :
    l.seenContext order ids = ids.context := by
  rw [Bool.and_eq_true, clashes_iff] at h
  exact if_neg h

theorem readCell_of_ok {row qualifier value : Bytes}
    (hids : l.readIds order row qualifier = .ok ids) (hquad : (l.readQuad (.start value)).1 = .ok q) :
    l.readCell order row qualifier value
      = if q.context.isSome = ids.context.isSome then .ok ⟨ids, q⟩
        else .error (.context order) := by
  rw [readCell, hids]
  simp only [bind, Except.bind, hquad]
  rfl

/-- What is read from a cell of a statement.  Its identifiers and its value disagree on the context
if the order has one and the named graph is taken for the default graph. -/
theorem readCell_cellIn (h : l.EncodesTo q e) (hlimit : e.valueBytes.length < positionLimit)
    (order : Order) :
    l.readCell order (l.row order (l.idsOf e)) (l.qualifier order (l.idsOf e)) e.valueBytes
      = if order.hasContext && l.clashes (l.idsOf e) then .error (.context order)
        else .ok ⟨l.idsOf e, q⟩ := by
  have hquad : (l.readQuad (.start e.valueBytes)).1 = .ok q := by
    rw [Cursor.start, readsAll_readQuad h 0 (by omega)]
  have hsome := isSome_context_idsOf h
  rw [readCell_of_ok (readIds_row_qualifier order (l.sized_idsOf e)) hquad]
  by_cases hclash : (order.hasContext && l.clashes (l.idsOf e)) = true
  · rw [if_pos hclash, seenContext_of_clash hclash]
    have hcontext := clashes_iff.1 (Bool.and_eq_true_iff.1 hclash).2
    rw [hcontext] at hsome
    exact if_neg fun heq => Bool.noConfusion (hsome.trans heq)
  · rw [if_neg hclash, seenContext_of_no_clash hclash]
    exact if_pos hsome.symm

end Layout

end RdfIndex
