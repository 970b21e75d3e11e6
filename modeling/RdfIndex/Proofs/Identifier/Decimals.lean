import RdfIndex.Proofs.Identifier.Roles
import RdfIndex.Proofs.Number.Denoted

/-!
# Decimals that are constructed

The literal of a decimal has a label that denotes the number of the decimal, with as many fraction
digits as the scale says.  The digits are written as they are, so that a fraction may end in zeros.
Then the label is not canonical: the literal is stored with its datatype, and its identifier does
not tell that it is a number (`IdFactory.id_decimal`).
-/

namespace RdfIndex

namespace Encoded

variable {e : Encoded} {d : Decimal}

theorem tag_of_isOfType_decimal (h : e.IsOfType .decimal) :
    e.tag = .literal .decimal ∨ e.tag = .literal .decimalText := by
  obtain ⟨form, htag, htype⟩ := h
  cases form with
  | decimal => exact .inl htag
  | decimalText => exact .inr htag
  | _ => cases htype

theorem isSome_ofDecimal?_text_iff : (ofDecimal? d.text).isSome = true ↔ d.IsTrimmed := by
  rw [isSome_ofDecimal?_iff, Decimal.text, String.toList_ofList, Decimal.isCanonical_toChars_iff]

end Encoded

theorem Codec.encode_decimal (codec : Codec) (d : Decimal) :
    codec.encode (.literal (.decimal d))
      = .ok ((Encoded.ofDecimal? d.text).getD (codec.encodeDatatyped d.text Xsd.decimal)) :=
  encodeLiteral_native (show Encoded.ofNative? codec.threshold .decimal d.text = _ from rfl)

theorem Literal.isWrittenNumber_decimal_iff {d : Decimal} :
    (Literal.decimal d).IsWrittenNumber ↔ d.IsTrimmed := by
  have htyped := isWrittenNumber_typed_iff d.text .decimal
  rw [Decimal.text, String.toList_ofList] at htyped
  exact htyped.trans (Decimal.isCanonical_iff.symm.trans Decimal.isCanonical_toChars_iff)

namespace IdFactory

/-- The literal of a decimal, for every unscaled number and every scale.  The label denotes the
number of the decimal.  It is the digits of the number after a hyphen for negative numbers only,
with the point in front of as many digits as the scale says, or of one zero.  It is canonical unless
its fraction ends in a zero that is not alone, which the unscaled number tells.  A canonical label
is stored as a number, or as text in the form for that, and the identifier tells that it is one.
Another label is stored with the datatype, and the identifier does not tell. -/
theorem id_decimal (f : IdFactory) (d : Decimal) :
    NativeType.decimal.Denotes d.toChars d.value
    ∧ (∃ whole fraction, d.IsCut whole fraction
      ∧ d.toChars = Decimal.labelOf (decide (d.unscaled < 0)) whole
        (Decimal.writtenFraction fraction))
    ∧ (Decimal.isCanonical d.toChars = true ↔ d.IsTrimmed)
    ∧ ∃ e id, f.codec.encode (.literal (.decimal d)) = .ok e
      ∧ f.id (.literal (.decimal d)) = .ok id
      ∧ (d.IsTrimmed → e.tag = .literal .decimal ∨ e.tag = .literal .decimalText)
      ∧ (¬ d.IsTrimmed → e = f.codec.encodeDatatyped d.text Xsd.decimal)
      ∧ ((f.roles id).numeric = true ↔ d.IsTrimmed) := by
  refine ⟨d.denotes_toChars, ⟨_, _, d.isCut_parts, d.toChars_eq⟩,
    Decimal.isCanonical_toChars_iff, ?_⟩
  have hencode := f.codec.encode_decimal d
  have hid : f.id (.literal (.decimal d)) = .ok (f.derive _) :=
    congrArg (Except.map f.derive) hencode
  have hnumeric := (trueOf_of_id hid).numeric.trans Literal.isWrittenNumber_decimal_iff
  refine ⟨_, _, hencode, hid, fun htrimmed => ?_, fun hnot => ?_, hnumeric⟩
  · obtain ⟨e, he⟩ := Option.isSome_iff_exists.1 (Encoded.isSome_ofDecimal?_text_iff.2 htrimmed)
    rw [he]
    exact Encoded.tag_of_isOfType_decimal (Encoded.isOfType_ofDecimal? he)
  · rw [← Encoded.isSome_ofDecimal?_text_iff, Option.not_isSome_iff_eq_none] at hnot
    rw [hnot]
    rfl

/-- One with two digits after the point: the label is not canonical, and the identifier does not
tell that it is a number. -/
theorem id_decimal_one :
    (Decimal.mk 100 2).text = "1.00" ∧ Decimal.isCanonical (Decimal.mk 100 2).toChars = false
      ∧ single.codec.encode (.literal (.decimal ⟨100, 2⟩))
        = .ok (single.codec.encodeDatatyped "1.00" Xsd.decimal)
      ∧ single.id (.literal (.decimal ⟨100, 2⟩)) = .ok ⟨[4]⟩
      ∧ (single.roles ⟨[4]⟩).numeric = false := by
  refine ⟨by decide +kernel, by decide +kernel, ?_, ok_of_toOption (by decide +kernel), rfl⟩
  exact ok_of_toOption (by decide +kernel)

end IdFactory

end RdfIndex
