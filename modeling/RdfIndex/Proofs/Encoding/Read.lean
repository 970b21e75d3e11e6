import RdfIndex.Encoding.Value
import RdfIndex.Proofs.Bytes.Reads

/-!
# Reading one level of a term

The members of a quoted triple and the datatype of a literal are terms in regions of their own, so
what is read off a region is one tag, the fields of its form, and the terms of the regions inside.
`Codec.readWith` reads that much and asks for the members.  `read_eq` says that a term is read with
itself as the reader of its members.
-/

namespace RdfIndex

/-! ## Steps of a reader -/

namespace Reader

variable {α β : Type}

theorem bind_error {r : Reader α} {f : α → Reader β} {c c' : Cursor} {e : DecodeError}
    (h : r c = (.error e, c')) : (r >>= f) c = (.error e, c') := by
  show Reader.bind r f c = _
  rw [Reader.bind, h]

theorem check_ok_bind {result : Except DecodeError α} {f : α → Reader β} {a : α}
    (h : result = .ok a) (c : Cursor) : (check result >>= f) c = f a c :=
  bind_ok (congrArg (·, c) h)

theorem check_error_bind {result : Except DecodeError α} {f : α → Reader β} {e : DecodeError}
    (h : result = .error e) (c : Cursor) : (check result >>= f) c = (.error e, c) :=
  bind_error (congrArg (·, c) h)

theorem of_bind_ok {r : Reader α} {f : α → Reader β} {c c' : Cursor} {b : β}
    (h : (r >>= f) c = (.ok b, c')) : ∃ a c1, r c = (.ok a, c1) ∧ f a c1 = (.ok b, c') := by
  have h : Reader.bind r f c = (.ok b, c') := h
  rw [Reader.bind] at h
  split at h
  · next a c1 hr => exact ⟨a, c1, hr, h⟩
  · cases h

/-- A check that was passed moved nothing. -/
theorem of_check_bind_ok {result : Except DecodeError α} {f : α → Reader β} {c c' : Cursor} {b : β}
    (h : (check result >>= f) c = (.ok b, c')) : ∃ a, result = .ok a ∧ f a c = (.ok b, c') := by
  cases result with
  | error e => cases h
  | ok a => exact ⟨a, rfl, h⟩

end Reader

namespace Codec

/-- Reads a literal with its datatype after the tag.  Terms in regions of their own are read by
`member`. -/
def readDatatyped (member : Bytes → Except DecodeError Term) : Reader Term := do
  let datatype ← Reader.check (member (← Reader.withLength))
  let datatype ← Reader.check (datatypeOf datatype)
  return .literal (.typed (← Reader.text) datatype)

/-- Reads a quoted triple after the tag.  Terms in regions of their own are read by `member`. -/
def readTriple (member : Bytes → Except DecodeError Term) : Reader Term := do
  let subject ← Reader.check (member (← Reader.withLength))
  let predicate ← Reader.check (member (← Reader.withLength))
  let object ← Reader.check (member (← Reader.rest))
  let predicate ← Reader.check (predicateOf predicate)
  return .triple subject predicate object

/-- Reads the rest as a term with the given tag. -/
def readPayload (codec : Codec) (member : Bytes → Except DecodeError Term) : Tag → Reader Term
  | .iri form => Term.iri <$> codec.vocabulary.readIri form
  | .blank => Term.blank <$> Reader.text
  | .literal form => Term.literal <$> codec.readLiteral form
  | .datatyped => readDatatyped member
  | .triple => readTriple member

/-- A term is read as its tag and its payload, the members of the payload as whole regions. -/
theorem read_eq (codec : Codec) (c : Cursor) :
    codec.read c = (readTag >>= codec.readPayload codec.readValue) c := by
  have value : ∀ {d : Bytes} {r : Except DecodeError Term},
      finish (codec.read (.start d)) = r → codec.readValue d = r := fun h => h
  rw [read]
  split
  · next h => rw [Reader.bind_error h]
  · next h => rw [Reader.bind_ok h, readPayload]
  · next h => rw [Reader.bind_ok h, readPayload]
  · next h => rw [Reader.bind_ok h, readPayload]
  · next h =>
    rw [Reader.bind_ok h, readPayload, readDatatyped]
    split
    · next hd => rw [Reader.bind_error hd]
    · next hd =>
      rw [Reader.bind_ok hd]
      split
      · next hread => rw [Reader.check_error_bind (value hread)]
      · next hread => rw [Reader.check_ok_bind (value hread)]
  · next h =>
    rw [Reader.bind_ok h, readPayload, readTriple]
    split
    · next hs => rw [Reader.bind_error hs]
    · next hs =>
      rw [Reader.bind_ok hs]
      split
      · next hsubject => rw [Reader.check_error_bind (value hsubject)]
      · next hsubject =>
        rw [Reader.check_ok_bind (value hsubject)]
        split
        · next hp => rw [Reader.bind_error hp]
        · next c3 hp =>
          have hrest : Reader.rest c3 = (.ok c3.rest, ⟨c3.offset + c3.rest.length, []⟩) := rfl
          rw [Reader.bind_ok hp]
          split
          · next hpredicate => rw [Reader.check_error_bind (value hpredicate)]
          · next hpredicate =>
            rw [Reader.check_ok_bind (value hpredicate), Reader.bind_ok hrest]
            split
            · next hobject => rw [Reader.check_error_bind (value hobject)]
            · next hobject => rw [Reader.check_ok_bind (value hobject), Reader.bind_ok hrest]

end Codec

end RdfIndex
