import RdfIndex.Encoding.Value
import RdfIndex.Proofs.Calendar.Cuts
import RdfIndex.Proofs.Encoding.Literal

/-!
# Terms that cannot be encoded

A term is encoded unless it holds a literal whose label cannot be cut (`Term.IsCut`).  Only the
labels of dates and times are cut, and only to see whether they are canonical.
-/

namespace RdfIndex

/-- The labels of a native datatype that its reader would cut inside a character. -/
def NativeType.Cuts : NativeType → List Char → Prop
  | .date => Calendar.CutsZone
  | .time => Calendar.CutsTime
  | .dateTime => Calendar.CutsDateTime
  | _ => fun _ => False

/-- The label of a date or time would be cut inside a character. -/
def Literal.IsCut : Literal → Prop
  | .typed label datatype => ∃ type : NativeType, type.iri = datatype ∧ type.Cuts label.toList
  | .tagged _ _ _ => False

/-- A label in the term would be cut inside a character. -/
def Term.IsCut : Term → Prop
  | .iri _ => False
  | .blank _ => False
  | .literal l => l.IsCut
  | .triple s _ o => s.IsCut ∨ o.IsCut

theorem NativeType.ofIri?_iri (type : NativeType) : NativeType.ofIri? type.iri = some type := by
  cases type <;> rfl

/-- A label of a native datatype is stored or refused unless it would be cut. -/
theorem Encoded.ofNative?_ok_iff {threshold : Nat} {type : NativeType} {label : String} :
    (∃ v, Encoded.ofNative? threshold type label = .ok v) ↔ ¬ type.Cuts label.toList := by
  cases type with
  | date => exact exists_ok_bind_pure_iff.trans (Calendar.ZonedDate.read?_ok_iff label)
  | time => exact exists_ok_bind_pure_iff.trans (Calendar.ZonedTime.read?_ok_iff label)
  | dateTime => exact exists_ok_bind_pure_iff.trans (Calendar.DateTime.read?_ok_iff label)
  | _ => exact ⟨fun _ h => h, fun _ => ⟨_, rfl⟩⟩

theorem Literal.isCut_typed_iff {label : String} {type : NativeType} :
    (Literal.typed label type.iri).IsCut ↔ type.Cuts label.toList := by
  refine ⟨fun ⟨type', heq, h⟩ => ?_, fun h => ⟨type, rfl, h⟩⟩
  have := congrArg NativeType.ofIri? heq
  rw [NativeType.ofIri?_iri, NativeType.ofIri?_iri, Option.some.injEq] at this
  exact this ▸ h

namespace Codec

variable (codec : Codec)

theorem encodeLiteral_ok_iff (l : Literal) :
    (∃ e, codec.encodeLiteral l = .ok e) ↔ ¬ l.IsCut := by
  cases l with
  | tagged label language hne => exact ⟨fun _ h => h, fun _ => ⟨_, rfl⟩⟩
  | typed label datatype =>
    rw [encodeLiteral]
    split
    · next type htype =>
      rw [← NativeType.iri_of_ofIri? htype, Literal.isCut_typed_iff]
      exact exists_ok_bind_pure_iff.trans Encoded.ofNative?_ok_iff
    · next hnone =>
      refine ⟨fun _ => ?_, fun _ => ⟨_, rfl⟩⟩
      rintro ⟨type, rfl, _⟩
      rw [NativeType.ofIri?_iri] at hnone
      cases hnone

/-- A term is encoded unless a label in it would be cut inside a character. -/
theorem encode_ok_iff (t : Term) : (∃ e, codec.encode t = .ok e) ↔ ¬ t.IsCut := by
  induction t with
  | iri text => exact ⟨fun _ h => h, fun _ => ⟨_, rfl⟩⟩
  | blank label => exact ⟨fun _ h => h, fun _ => ⟨_, rfl⟩⟩
  | literal l => exact codec.encodeLiteral_ok_iff l
  | triple s p o ihs iho =>
    rw [Term.IsCut, not_or, ← ihs, ← iho]
    exact exists_ok_bind_iff fun _ => exists_ok_bind_pure_iff

end Codec

end RdfIndex
