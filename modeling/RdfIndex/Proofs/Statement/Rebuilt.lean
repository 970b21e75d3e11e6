import RdfIndex.Proofs.Statement.Checked

/-!
# Cells rebuilt from what was read

Rows and qualifiers that can be read are those that are written for the identifiers in them, and no
others.  The parts that are cut out for the roles of an order are all of the row after its first
byte (`Recovered.row_eq`) and all of the qualifier up to the context (`Recovered.qualifier_eq`), and
an identifier is cut again where it was cut before.

The default graph comes back in two ways.  In an order with context it is read where its own
identifier is filed, and filed there again.  In an order without context nothing is left of the
qualifier for it, and nothing is added.
-/

namespace RdfIndex

namespace Layout

variable {l : Layout} {order : Order} {role : Role} {row qualifier : Bytes} {ids : StatementIds}

/-! ## What is filed -/

namespace Recovered

variable (h : l.Recovered order row qualifier ids)

include h

/-- The context of an order with context is filed where it was read. -/
theorem filed_context (horder : order.hasContext = true) :
    l.filed ids .context = l.idAt order .context row qualifier := by
  rw [filed, StatementIds.get?, h.context_eq, contextAt, if_pos horder]
  by_cases hdefault : l.idAt order .context row qualifier = l.defaultContext
  · simp only [hdefault, if_true]
    rfl
  · simp only [hdefault, if_false]
    rfl

/-- Every role of the order is filed under the identifier that was read for it. -/
theorem filed_eq_idAt (hrole : role ∈ order.roles) :
    l.filed ids role = l.idAt order role row qualifier := by
  by_cases hcontext : role = .context
  · subst hcontext
    exact h.filed_context (Order.hasContext_of_mem hrole)
  · exact h.filed_eq role hcontext

/-! ## Rows and qualifiers -/

/-- The row of what was read is the row that was read. -/
theorem row_eq : l.row order ids = row := by
  have hlength := h.length_row
  rw [rowSize] at hlength
  have hkeys : ∀ role ∈ order.roles, l.keyHash order role (l.filed ids role)
      = ((row.drop 1).drop (total l.widths.get (rolesBefore order role))).take
        (l.widths.get role) := by
    intro role hrole
    rw [h.filed_eq_idAt hrole, h.keyHash_idAt hrole, keyAt, List.drop_drop]
  have hparts : order.roles.flatMap (fun role => l.keyHash order role (l.filed ids role))
      = row.drop 1 := by
    rw [List.flatMap_congr hkeys]
    refine (flatMap_parts l.widths.get order.nodup_roles (row.drop 1)).trans ?_
    exact List.take_of_length_le (by rw [List.length_drop]; omega)
  rw [Layout.row, hparts]
  have hhead := h.head_row
  cases row with
  | nil => cases hhead
  | cons b rest =>
    cases hhead
    rfl

/-- What the row of what was read leaves is the start of the qualifier. -/
theorem remainders_eq :
    l.remainders order ids = qualifier.take (l.remaindersSize order) := by
  have hremainders : ∀ role ∈ order.roles, l.remainder order role (l.filed ids role)
      = (qualifier.drop (total l.remainderWidth (rolesBefore order role))).take
        (l.remainderWidth role) := by
    intro role hrole
    rw [h.filed_eq_idAt hrole, h.remainder_idAt hrole, remainderAt]
  rw [remainders, List.flatMap_congr hremainders]
  exact flatMap_parts l.remainderWidth order.nodup_roles qualifier

/-- What an order without context adds is the end of the qualifier. -/
theorem added_eq :
    (if order.hasContext then [] else (ids.context.map Identifier.bytes).getD [])
      = qualifier.drop (l.remaindersSize order) := by
  rw [h.context_eq, contextAt]
  cases horder : order.hasContext with
  | true =>
    -- The size of the qualifier leaves no room for a whole identifier.
    have hfits := h.fits
    simp only [fitsQualifier, horder, Bool.not_true, Bool.false_and, Bool.or_false,
      beq_iff_eq] at hfits
    rw [List.drop_eq_nil_of_le (Nat.le_of_eq hfits)]
    rfl
  | false =>
    cases qualifier.drop (l.remaindersSize order) with
    | nil => rfl
    | cons b rest => rfl

/-- The qualifier of what was read is the qualifier that was read. -/
theorem qualifier_eq : l.qualifier order ids = qualifier := by
  rw [Layout.qualifier, h.remainders_eq, h.added_eq, List.take_append_drop]

end Recovered

/-! ## Cells -/

/-- A statement has one cell in each order. -/
theorem cellsFor_filter (l : Layout) (ids : StatementIds) (e : EncodedQuad) (order : Order) :
    (l.cellsFor ids e).filter (fun c => c.order == order) = [l.cellIn ids e order] := by
  cases order <;> rfl

/-- What is read agrees with itself on whether there is a context. -/
theorem context_of_readCell {value : Bytes} {b : CellContent}
    (h : l.readCell order row qualifier value = .ok b) :
    b.ids.context.isSome = b.quad.context.isSome := by
  obtain ⟨ids, _, h⟩ := ok_of_bind h
  obtain ⟨q, _, h⟩ := ok_of_bind h
  by_cases hcontext : q.context.isSome = ids.context.isSome
  · rw [if_pos hcontext] at h
    cases h
    exact hcontext.symm
  · rw [if_neg hcontext] at h
    cases h

/-- Only rows and qualifiers that are written are read.  For every layout, every order, every row,
every qualifier and every value that a machine can hold, a machine that reads the cell either
reports an error of decoding, or gives identifiers of the size of the layout and a statement that
agree on whether there is a context.  Of all cells that are written for these identifiers, whatever
terms they are written with, exactly one is then in the order, and it has the row and the qualifier
that were read. -/
theorem readCellChecked_rebuilt (l : Layout) (order : Order) (row qualifier value : Bytes)
    (hvalue : value.length < positionLimit) :
    (∃ e : DecodeError, l.readCellChecked order row qualifier value = .error (.failed (.decode e))
      ∧ l.readCell order row qualifier value = .error e)
    ∨ ∃ b, l.readCellChecked order row qualifier value = .ok b
      ∧ l.readCell order row qualifier value = .ok b
      ∧ l.Sized b.ids
      ∧ b.ids.context.isSome = b.quad.context.isSome
      ∧ ∀ e : EncodedQuad, (l.cellsFor b.ids e).filter (fun c => c.order == order)
        = [⟨order, row, qualifier, e.valueBytes⟩] := by
  rw [l.readCellChecked_eq order row qualifier hvalue]
  cases hread : l.readCell order row qualifier value with
  | error e => exact .inl ⟨e, rfl, rfl⟩
  | ok b =>
    have hrecovered := readCell_ok hread
    refine .inr ⟨b, rfl, rfl, hrecovered.sized, context_of_readCell hread, fun e => ?_⟩
    rw [cellsFor_filter, cellIn, hrecovered.row_eq, hrecovered.qualifier_eq]

/-- A row and a qualifier with parts that no term has, for a statement in a graph, are written
again, and a qualifier that is cut short is refused. -/
theorem readCellChecked_rebuilt_narrow :
    (∃ e : DecodeError, narrowLayout.readCellChecked .spo [0, 1, 2, 3, 4] [5] []
      = .error (.failed (.decode e)))
    ∧ ∃ b, narrowLayout.readCellChecked .spo [0, 1, 2, 3, 4] [5, 6, 7, 8]
        [3, 2, 6, 115, 3, 2, 6, 112, 2, 16, 111, 2, 6, 103] = .ok b
      ∧ b.ids.context = some ⟨[7, 8]⟩
      ∧ ∀ e, (narrowLayout.cellsFor b.ids e).filter (fun c => c.order == .spo)
        = [⟨.spo, [0, 1, 2, 3, 4], [5, 6, 7, 8], e.valueBytes⟩] := by
  have hshort : (narrowLayout.readCell .spo [0, 1, 2, 3, 4] [5] []).toOption = none := by
    decide +kernel
  have hcontext : ((narrowLayout.readCell .spo [0, 1, 2, 3, 4] [5, 6, 7, 8]
      [3, 2, 6, 115, 3, 2, 6, 112, 2, 16, 111, 2, 6, 103]).toOption.bind fun b => b.ids.context)
        = some ⟨[7, 8]⟩ := by
    decide +kernel
  constructor
  · rcases narrowLayout.readCellChecked_rebuilt .spo [0, 1, 2, 3, 4] [5] [] (by decide) with
      ⟨e, he, _⟩ | ⟨b, _, hread, _⟩
    · exact ⟨e, he⟩
    · rw [hread] at hshort
      cases hshort
  · rcases narrowLayout.readCellChecked_rebuilt .spo [0, 1, 2, 3, 4] [5, 6, 7, 8]
      [3, 2, 6, 115, 3, 2, 6, 112, 2, 16, 111, 2, 6, 103] (by decide) with
      ⟨e, _, hread⟩ | ⟨b, hchecked, hread, _, _, hrebuilt⟩
    · rw [hread] at hcontext
      cases hcontext
    · rw [hread] at hcontext
      exact ⟨b, hchecked, hcontext, hrebuilt⟩

end Layout

end RdfIndex
