import RdfIndex.Proofs.Encoding.Cuts
import RdfIndex.Proofs.Number.Floating
import RdfIndex.Proofs.Number.Written

/-!
# The forms of strings and numbers

The ranges of tag bytes are those of the forms of strings and of numbers.  A label of a native
datatype is stored in a form of that datatype (`Encoded.isOfType_ofNative?`), and a numeric one has
a form for a label if and only if a value is written as the label (`Encoded.isSome_ofNative?_iff`).
-/

namespace RdfIndex

/-! ## Numbers as they are written -/

/-- The labels that the integers of so many bits are written as. -/
def NativeType.WritesFixed (bits : Nat) (label : List Char) : Prop :=
  ∃ i : Int, -2 ^ (bits - 1) ≤ i ∧ i < 2 ^ (bits - 1) ∧ Numeral.ofInt i = label

/-- The labels that the values of a numeric datatype are written as. -/
def NativeType.WritesNumber : NativeType → List Char → Prop
  | .byte => WritesFixed 8
  | .short => WritesFixed 16
  | .int => WritesFixed 32
  | .long => WritesFixed 64
  | .integer => fun label => ∃ i, Numeral.ofInt i = label
  | .decimal => fun label => ∃ negative whole fraction, Decimal.IsParts negative whole fraction
      ∧ Decimal.labelOf negative whole fraction = label
  | .float => fun label => ∃ bits < 2 ^ 32, Floating.toChars binary32 bits = label
  | .double => fun label => ∃ bits < 2 ^ 64, Floating.toChars binary64 bits = label
  | _ => fun _ => False

/-- A number with the label that its value is written as. -/
def Literal.IsWrittenNumber : Literal → Prop
  | .typed label datatype =>
    ∃ type : NativeType, type.iri = datatype ∧ type.WritesNumber label.toList
  | .tagged _ _ _ => False

/-- The native datatypes of numbers. -/
def NativeType.isNumeric : NativeType → Bool
  | .byte | .short | .int | .long | .integer | .decimal | .float | .double => true
  | _ => false

theorem NativeType.isNumeric_of_writesNumber {type : NativeType} {label : List Char}
    (h : type.WritesNumber label) : type.isNumeric = true := by
  cases type <;> first | rfl | exact h.elim

theorem NativeType.iri_inj {type type' : NativeType} : type.iri = type'.iri ↔ type = type' := by
  refine ⟨fun h => ?_, congrArg iri⟩
  have := congrArg ofIri? h
  rwa [ofIri?_iri, ofIri?_iri, Option.some.injEq] at this

theorem Literal.isWrittenNumber_typed_iff (label : String) (type : NativeType) :
    (Literal.typed label type.iri).IsWrittenNumber ↔ type.WritesNumber label.toList := by
  refine ⟨fun ⟨type', heq, h⟩ => ?_, fun h => ⟨type, rfl, h⟩⟩
  exact NativeType.iri_inj.1 heq ▸ h

/-- A written number has a numeric datatype and no language. -/
theorem Literal.IsWrittenNumber.isNumeric {l : Literal} (h : l.IsWrittenNumber) :
    l.isNumeric = true ∧ l.language? = none := by
  cases l with
  | tagged label language hne => exact h.elim
  | typed label datatype =>
    obtain ⟨type, rfl, h⟩ := h
    refine ⟨?_, rfl⟩
    have hnumeric := NativeType.isNumeric_of_writesNumber h
    cases type <;> first | rfl | cases hnumeric

/-! ## Forms and their bytes -/

/-- The native datatype of the literals that are stored in a form.  Those with a language have
none. -/
def LiteralForm.type? : LiteralForm → Option NativeType
  | .string | .compressedString => some .string
  | .tagged | .taggedHash => none
  | .xml => some .xml
  | .wkt => some .wkt
  | .no | .yes => some .boolean
  | .byte => some .byte
  | .short => some .short
  | .int => some .int
  | .long => some .long
  | .float => some .float
  | .double => some .double
  | .integer2 | .integer4 | .integer8 | .integerText => some .integer
  | .decimal | .decimalText => some .decimal
  | .dateTime => some .dateTime
  | .date => some .date
  | .time => some .time

/-- The kind of the terms that are stored with a tag. -/
def Tag.kind : Tag → Kind
  | .iri _ => .iri
  | .blank => .blank
  | .triple => .triple
  | .datatyped | .literal _ => .literal

theorem Tag.kindOfByte_byte (tag : Tag) : Tag.kindOfByte tag.byte = tag.kind := by
  cases tag with
  | iri form => cases form <;> rfl
  | literal form => cases form <;> rfl
  | _ => rfl

/-- What is no literal is neither a string nor a number. -/
theorem Tag.ranges_of_kind_ne (tag : Tag) (h : tag.kind ≠ .literal) :
    Tag.isStringByte tag.byte = false ∧ Tag.isNumericByte tag.byte = false := by
  cases tag with
  | iri form => cases form <;> exact ⟨rfl, rfl⟩
  | datatyped => exact absurd rfl h
  | literal form => exact absurd rfl h
  | _ => exact ⟨rfl, rfl⟩

/-- The range of strings holds the forms of strings and those with a language. -/
theorem LiteralForm.isStringByte_tagByte (form : LiteralForm) :
    Tag.isStringByte form.tagByte = form.type?.all (· == .string) := by
  cases form <;> rfl

/-- The range of numbers holds the forms of numeric datatypes. -/
theorem LiteralForm.isNumericByte_tagByte (form : LiteralForm) :
    Tag.isNumericByte form.tagByte = form.type?.any (·.isNumeric) := by
  cases form <;> rfl

/-! ## Native datatypes -/

namespace Encoded

variable {label : String} {e : Encoded}

/-- An encoded literal: its tag is that of a form of the datatype. -/
def IsOfType (e : Encoded) (type : NativeType) : Prop :=
  ∃ form, e.tag = .literal form ∧ form.type? = some type

theorem isOfType_ofString (threshold : Nat) (label : String) :
    (ofString threshold label).IsOfType .string := by
  rw [ofString]
  split
  · exact ⟨.compressedString, rfl, rfl⟩
  · exact ⟨.string, rfl, rfl⟩

/-- A value that is stored in one form. -/
theorem isOfType_map {α : Type} {v : Option α} {form : LiteralForm} {bytes : α → Bytes}
    {type : NativeType} (hform : form.type? = some type)
    (h : (v.map fun a => (⟨.literal form, bytes a⟩ : Encoded)) = some e) : e.IsOfType type := by
  obtain ⟨a, _, rfl⟩ := Option.map_eq_some_iff.1 h
  exact ⟨form, rfl, hform⟩

theorem isOfType_ofInteger? (h : ofInteger? label = some e) : e.IsOfType .integer := by
  rw [ofInteger?] at h
  split at h
  · cases h
  split at h
  · cases h
    exact ⟨.integer2, rfl, rfl⟩
  split at h
  · cases h
    exact ⟨.integer4, rfl, rfl⟩
  split at h
  · cases h
    exact ⟨.integer8, rfl, rfl⟩
  · cases h
    exact ⟨.integerText, rfl, rfl⟩

theorem isOfType_ofDecimal? (h : ofDecimal? label = some e) : e.IsOfType .decimal := by
  rw [ofDecimal?] at h
  split at h
  · cases h
    exact ⟨.decimal, rfl, rfl⟩
  · rw [Option.ite_none_right_eq_some] at h
    cases h.2
    exact ⟨.decimalText, rfl, rfl⟩

/-- A label of a native datatype is stored in a form of that datatype. -/
theorem isOfType_ofNative? {threshold : Nat} {type : NativeType}
    (h : ofNative? threshold type label = .ok (some e)) : e.IsOfType type := by
  cases type with
  | string =>
    cases h
    exact isOfType_ofString threshold label
  | boolean =>
    obtain ⟨b, _, rfl⟩ := Option.map_eq_some_iff.1 (Except.ok.inj h)
    cases b with
    | true => exact ⟨.yes, rfl, rfl⟩
    | false => exact ⟨.no, rfl, rfl⟩
  | byte => exact isOfType_map rfl (Except.ok.inj h)
  | short => exact isOfType_map rfl (Except.ok.inj h)
  | int => exact isOfType_map rfl (Except.ok.inj h)
  | long => exact isOfType_map rfl (Except.ok.inj h)
  | float => exact isOfType_map rfl (Except.ok.inj h)
  | double => exact isOfType_map rfl (Except.ok.inj h)
  | integer => exact isOfType_ofInteger? (Except.ok.inj h)
  | decimal => exact isOfType_ofDecimal? (Except.ok.inj h)
  | dateTime =>
    obtain ⟨v, _, h⟩ := ok_of_bind h
    exact isOfType_map rfl (Except.ok.inj h)
  | date =>
    obtain ⟨v, _, h⟩ := ok_of_bind h
    exact isOfType_map rfl (Except.ok.inj h)
  | time =>
    obtain ⟨v, _, h⟩ := ok_of_bind h
    exact isOfType_map rfl (Except.ok.inj h)
  | xml =>
    cases h
    exact ⟨.xml, rfl, rfl⟩
  | wkt =>
    cases h
    exact ⟨.wkt, rfl, rfl⟩

end Encoded

/-- A label of a native datatype is stored in the form that there is for it, else with the
datatype. -/
theorem Codec.encodeLiteral_native {codec : Codec} {type : NativeType} {label : String}
    {native : Option Encoded} (h : Encoded.ofNative? codec.threshold type label = .ok native) :
    codec.encodeLiteral (.typed label type.iri)
      = .ok (native.getD (codec.encodeDatatyped label type.iri)) := by
  rw [encodeLiteral, NativeType.ofIri?_iri]
  simp only [h]
  rfl

/-! ## Labels that are stored as numbers -/

namespace Encoded

variable {label : String}

/-- Some bytes are as many bits. -/
theorem fits_iff {width : Nat} (hwidth : 0 < width) (i : Int) :
    Integer.fits width i = true ↔ -2 ^ (8 * width - 1) ≤ i ∧ i < 2 ^ (8 * width - 1) := by
  have hpow : (Nat.pow 256 width : Int) = 2 * 2 ^ (8 * width - 1) := by
    have hbits : 8 * width - 1 + 1 = 8 * width := by omega
    rw [← pow_succ', hbits, pow_mul]
    push_cast
    rfl
  simp only [Integer.fits, Bool.and_eq_true, decide_eq_true_eq, hpow]
  omega

theorem isSome_ofFixed?_iff (form : LiteralForm) (width : Nat) (hwidth : 0 < width) :
    (ofFixed? form width label).isSome = true
      ↔ NativeType.WritesFixed (8 * width) label.toList := by
  rw [ofFixed?, Option.isSome_map, Option.isSome_iff_exists]
  refine exists_congr fun i => ?_
  rw [Integer.readFitting?_eq_some_iff, fits_iff hwidth, and_comm, and_assoc]

theorem isSome_ofInteger?_iff :
    (ofInteger? label).isSome = true ↔ ∃ i, Numeral.ofInt i = label.toList := by
  have hread : (ofInteger? label).isSome = (Integer.read? label.toList).isSome := by
    rw [ofInteger?]
    cases Integer.read? label.toList with
    | none => rfl
    | some i =>
      simp only [Option.isSome_some]
      repeat' split
      all_goals rfl
  rw [hread, Option.isSome_iff_exists]
  exact exists_congr fun i => Integer.read?_eq_some_iff

theorem isSome_ofDecimal?_iff :
    (ofDecimal? label).isSome = true ↔ Decimal.isCanonical label.toList = true := by
  rw [ofDecimal?]
  split
  · next d hread =>
    refine ⟨fun _ => ?_, fun _ => rfl⟩
    rw [Decimal.read?, Option.ite_none_right_eq_some] at hread
    exact hread.1
  · rw [Option.isSome_ite]

/-- A numeric datatype has a form for a label if and only if a value is written as the label. -/
theorem isSome_ofNative?_iff {threshold : Nat} {type : NativeType} {v : Option Encoded}
    (htype : type.isNumeric = true) (h : ofNative? threshold type label = .ok v) :
    v.isSome = true ↔ type.WritesNumber label.toList := by
  cases type with
  | byte =>
    cases h
    exact isSome_ofFixed?_iff .byte 1 (by decide)
  | short =>
    cases h
    exact isSome_ofFixed?_iff .short 2 (by decide)
  | int =>
    cases h
    exact isSome_ofFixed?_iff .int 4 (by decide)
  | long =>
    cases h
    exact isSome_ofFixed?_iff .long 8 (by decide)
  | float =>
    cases h
    rw [ofFloating?, Option.isSome_map]
    exact Floating.isSome_read?_binary32_iff
  | double =>
    cases h
    rw [ofFloating?, Option.isSome_map]
    exact Floating.isSome_read?_binary64_iff
  | integer =>
    cases h
    exact isSome_ofInteger?_iff
  | decimal =>
    cases h
    exact isSome_ofDecimal?_iff.trans Decimal.isCanonical_iff
  | _ => cases htype

end Encoded

end RdfIndex
