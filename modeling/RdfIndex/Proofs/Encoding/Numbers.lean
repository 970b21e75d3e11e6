import RdfIndex.Proofs.Encoding.Canonical
import RdfIndex.Proofs.Number.Denoted

/-!
# Integers and decimals are stored by value

A label of `xsd:integer` or `xsd:decimal` is stored in a form of its datatype if it is the one that
its number is written as.  Every number is written as one label (`NativeType.integer_writesOnce`,
`NativeType.decimal_writesOnce`), and what is stored tells labels apart, in few bytes or with the
label in them (`Encoded.label_or_short`).  So what is stored tells numbers apart
(`Codec.isValueCanonical`).
-/

namespace RdfIndex

/-! ## Numbers that are written -/

/-- Each of the numbers is written as one label. -/
structure NativeType.WritesOnce (type : NativeType) (IsNumber : ℚ → Prop) : Prop where
  denotes : ∀ label, type.WritesNumber label → ∃ q, IsNumber q ∧ type.Denotes label q
  exists_label : ∀ q, IsNumber q → ∃ label, type.WritesNumber label ∧ type.Denotes label q
  label_eq : ∀ label label' q, type.WritesNumber label → type.WritesNumber label' →
    type.Denotes label q → type.Denotes label' q → label = label'

namespace NativeType

theorem integer_writesOnce : integer.WritesOnce fun q => ∃ i : ℤ, q = i where
  denotes := by
    rintro label ⟨i, rfl⟩
    exact ⟨i, ⟨i, rfl⟩, Integer.denotes_ofInt i⟩
  exists_label := by
    rintro q ⟨i, rfl⟩
    exact ⟨Numeral.ofInt i, ⟨i, rfl⟩, Integer.denotes_ofInt i⟩
  label_eq := by
    rintro label label' q ⟨i, rfl⟩ ⟨j, rfl⟩ h h'
    have hi := (Integer.denotes_ofInt i).unique h
    have hj := (Integer.denotes_ofInt j).unique h'
    have hij : (i : ℚ) = j := hi.trans hj.symm
    rw [Int.cast_inj.1 hij]

theorem writesNumber_decimal_iff {label : List Char} :
    decimal.WritesNumber label ↔ ∃ d, Decimal.IsReduced d ∧ d.toChars = label :=
  Decimal.isCanonical_iff.symm.trans Decimal.isCanonical_iff_isReduced

theorem decimal_writesOnce :
    decimal.WritesOnce fun q => ∃ (unscaled : ℤ) (scale : ℕ), q = unscaled / 10 ^ scale where
  denotes := by
    intro label h
    obtain ⟨d, _, rfl⟩ := writesNumber_decimal_iff.1 h
    exact ⟨d.value, ⟨d.unscaled, d.scale, rfl⟩, d.denotes_toChars⟩
  exists_label := by
    rintro q ⟨unscaled, scale, rfl⟩
    obtain ⟨d, hreduced, hvalue⟩ := Decimal.exists_isReduced unscaled scale
    exact ⟨d.toChars, writesNumber_decimal_iff.2 ⟨d, hreduced, rfl⟩, hvalue ▸ d.denotes_toChars⟩
  label_eq := by
    intro label label' q hlabel hlabel' h h'
    obtain ⟨d, hd, rfl⟩ := writesNumber_decimal_iff.1 hlabel
    obtain ⟨d', hd', rfl⟩ := writesNumber_decimal_iff.1 hlabel'
    have hvalue := d.denotes_toChars.unique h
    have hvalue' := d'.denotes_toChars.unique h'
    rw [Decimal.eq_of_value_eq hd hd' (hvalue.trans hvalue'.symm)]

end NativeType

/-! ## Stored labels -/

namespace Encoded

variable {label : String} {e : Encoded}

theorem label_or_short_integer (h : ofInteger? label = some e) :
    e.payload = Utf8.bytes label ∨ e.payload.length ≤ 20 := by
  rw [ofInteger?] at h
  split at h
  · cases h
  split at h
  · cases h
    exact .inr (by simp)
  split at h
  · cases h
    exact .inr (by simp)
  split at h
  · cases h
    exact .inr (by simp)
  · cases h
    exact .inl rfl

theorem label_or_short_decimal (h : ofDecimal? label = some e) :
    e.payload = Utf8.bytes label ∨ e.payload.length ≤ 20 := by
  rw [ofDecimal?] at h
  split at h
  · next d hread =>
    cases h
    obtain ⟨_, hfits, hscale⟩ := Decimal.toChars_of_read? hread
    have hunscaled := Varint.length_encodeInt_le hfits
    have hscale := Varint.length_encodeInt_le (Decimal.fits_scale hscale)
    refine .inr ?_
    rw [List.length_append]
    omega
  · rw [Option.ite_none_right_eq_some] at h
    cases h.2
    exact .inl rfl

theorem length_of_ofFixed? {form : LiteralForm} {width : Nat}
    (h : ofFixed? form width label = some e) : e.payload.length = width := by
  obtain ⟨i, _, rfl⟩ := Option.map_eq_some_iff.1 h
  exact Bytes.length_ofInt width i

theorem length_of_ofFloating? {form : LiteralForm} {format : BinaryFormat}
    (h : ofFloating? form format label = some e) : e.payload.length = format.width := by
  obtain ⟨bits, _, rfl⟩ := Option.map_eq_some_iff.1 h
  exact Bytes.length_toBigEndian format.width bits

/-- A number is stored as its label, or in the bytes of two numbers of 64 bits at most. -/
theorem label_or_short {threshold : Nat} {type : NativeType} (htype : type.isNumeric = true)
    (h : ofNative? threshold type label = .ok (some e)) :
    e.payload = Utf8.bytes label ∨ e.payload.length ≤ 20 := by
  cases type with
  | byte => exact .inr (by rw [length_of_ofFixed? (Except.ok.inj h)]; decide)
  | short => exact .inr (by rw [length_of_ofFixed? (Except.ok.inj h)]; decide)
  | int => exact .inr (by rw [length_of_ofFixed? (Except.ok.inj h)]; decide)
  | long => exact .inr (by rw [length_of_ofFixed? (Except.ok.inj h)]; decide)
  | float => exact .inr (by rw [length_of_ofFloating? (Except.ok.inj h)]; decide)
  | double => exact .inr (by rw [length_of_ofFloating? (Except.ok.inj h)]; decide)
  | integer => exact label_or_short_integer (Except.ok.inj h)
  | decimal => exact label_or_short_decimal (Except.ok.inj h)
  | _ => cases htype

/-- No label of a numeric datatype is cut inside a character. -/
theorem exists_ofNative?_ok (threshold : Nat) {type : NativeType} (htype : type.isNumeric = true)
    (label : String) : ∃ v, ofNative? threshold type label = .ok v := by
  cases type <;> first | exact ⟨_, rfl⟩ | cases htype

end Encoded

namespace Codec

variable {codec : Codec} {type : NativeType} {label label' : String} {e e' : Encoded}
  {IsNumber : ℚ → Prop}

/-- A label is stored in a form of its native datatype. -/
def StoresNative (codec : Codec) (type : NativeType) (label : String) (e : Encoded) : Prop :=
  codec.encode (.literal (.typed label type.iri)) = .ok e ∧ e.IsOfType type

/-- Labels that are stored in the forms of a native datatype are stored alike if and only if they
denote the same number, and each of the numbers is denoted by exactly one of these labels. -/
structure IsValueCanonical (codec : Codec) (type : NativeType) (IsNumber : ℚ → Prop) : Prop where
  denotes : ∀ label e, codec.StoresNative type label e →
    ∃ q, IsNumber q ∧ type.Denotes label.toList q
  bytes_eq_iff : ∀ label label' e e', codec.StoresNative type label e →
    codec.StoresNative type label' e' →
    (e.bytes = e'.bytes ↔ ∃ q, type.Denotes label.toList q ∧ type.Denotes label'.toList q)
  existsUnique_label : ∀ q, IsNumber q →
    ∃! label : String, type.Denotes label.toList q ∧ ∃ e, codec.StoresNative type label e

theorem storesNative_iff : codec.StoresNative type label e
    ↔ Encoded.ofNative? codec.threshold type label = .ok (some e) := by
  constructor
  · rintro ⟨hencode, form, htag, htype⟩
    obtain ⟨label', heq, hnative⟩ := native_of_encode hencode htag htype
    cases heq
    exact hnative
  · exact fun h => ⟨Moment.encodeLiteral_typed type h, Encoded.isOfType_ofNative? h⟩

/-- What is stored tells the labels of numbers apart, also labels that are longer than any byte string
that is read. -/
theorem label_eq_of_bytes_eq (htype : type.isNumeric = true)
    (h : codec.StoresNative type label e) (h' : codec.StoresNative type label' e')
    (hbytes : e.bytes = e'.bytes) : label = label' := by
  have hpayload : e.payload = e'.payload := (List.cons.inj hbytes).2
  have hread (hshort : e.payload.length ≤ 20) : label = label' := by
    have hlimit : e.bytes.length < positionLimit := by
      rw [Encoded.bytes, List.length_cons, positionLimit]
      omega
    cases eq_of_bytes_eq h.1 h'.1 hlimit hbytes
    rfl
  rcases Encoded.label_or_short htype (storesNative_iff.1 h) with hlabel | hshort
  · rcases Encoded.label_or_short htype (storesNative_iff.1 h') with hlabel' | hshort'
    · exact Utf8.bytes_inj (hlabel.symm.trans (hpayload.trans hlabel'))
    · exact hread (hpayload ▸ hshort')
  · exact hread hshort

theorem exists_storesNative_iff (htype : type.isNumeric = true) :
    (∃ e, codec.StoresNative type label e) ↔ type.WritesNumber label.toList := by
  obtain ⟨v, hv⟩ := Encoded.exists_ofNative?_ok codec.threshold htype label
  simp only [storesNative_iff, ← Encoded.isSome_ofNative?_iff htype hv, hv, Except.ok.injEq,
    Option.isSome_iff_exists]

/-- If each number is written as one label, and so labels tell numbers apart, then what is stored
does. -/
theorem isValueCanonical_of_writesOnce (codec : Codec) (htype : type.isNumeric = true)
    (hwrites : type.WritesOnce IsNumber) : codec.IsValueCanonical type IsNumber := by
  have hnumber {label : String} {e : Encoded} (h : codec.StoresNative type label e) :
      type.WritesNumber label.toList := (exists_storesNative_iff htype).1 ⟨e, h⟩
  constructor
  · exact fun label e h => hwrites.denotes label.toList (hnumber h)
  · intro label label' e e' h h'
    constructor
    · intro hbytes
      obtain ⟨q, _, hq⟩ := hwrites.denotes label.toList (hnumber h)
      exact ⟨q, hq, label_eq_of_bytes_eq htype h h' hbytes ▸ hq⟩
    · rintro ⟨q, hq, hq'⟩
      have hlabel := String.toList_inj.1
        (hwrites.label_eq _ _ q (hnumber h) (hnumber h') hq hq')
      subst hlabel
      rw [Except.ok.inj (h.1.symm.trans h'.1)]
  · intro q hq
    obtain ⟨cs, hcs, hdenotes⟩ := hwrites.exists_label q hq
    have hlist : (String.ofList cs).toList = cs := String.toList_ofList
    refine ⟨String.ofList cs, ⟨hlist.symm ▸ hdenotes, ?_⟩, ?_⟩
    · exact (exists_storesNative_iff htype).2 (hlist.symm ▸ hcs)
    · rintro label ⟨hlabel, e, h⟩
      rw [← String.toList_inj, hlist]
      exact hwrites.label_eq _ _ q (hnumber h) hcs hlabel hdenotes

/-- Integers and decimals are stored by value.  For every vocabulary and every threshold, two labels
of `xsd:integer` that are stored in forms of it, or two such labels of `xsd:decimal`, have the same
bytes if and only if they denote the same number; and every integer, and every number with a finite
fraction, is denoted by exactly one label that is stored so, however long it is. -/
theorem isValueCanonical (codec : Codec) :
    codec.IsValueCanonical .integer (fun q => ∃ i : ℤ, q = i)
    ∧ codec.IsValueCanonical .decimal
      (fun q => ∃ (unscaled : ℤ) (scale : ℕ), q = unscaled / 10 ^ scale) :=
  ⟨codec.isValueCanonical_of_writesOnce rfl NativeType.integer_writesOnce,
    codec.isValueCanonical_of_writesOnce rfl NativeType.decimal_writesOnce⟩

/-- The integer before the least one of 64 bits is stored by its only native label. -/
theorem isValueCanonical_below_words :
    bare.StoresNative .integer "-9223372036854775809"
        ⟨.literal .integerText, Utf8.bytes "-9223372036854775809"⟩
      ∧ ∀ label e, bare.StoresNative .integer label e →
        NativeType.integer.Denotes label.toList (-9223372036854775809) →
        label = "-9223372036854775809" := by
  obtain ⟨hinteger, _⟩ := isValueCanonical bare
  have hstored : bare.StoresNative .integer "-9223372036854775809"
      ⟨.literal .integerText, Utf8.bytes "-9223372036854775809"⟩ :=
    storesNative_iff.2 (ok_of_toOption (by decide +kernel))
  have hcast : ((-9223372036854775809 : Int) : ℚ) = -9223372036854775809 := by norm_num
  have hself : Numeral.ofInt (-9223372036854775809) = "-9223372036854775809".toList := by
    decide +kernel
  have hdenoted := Integer.denotes_ofInt (-9223372036854775809)
  rw [hself, hcast] at hdenoted
  exact ⟨hstored, fun label e h hdenotes =>
    (hinteger.existsUnique_label _ ⟨_, hcast.symm⟩).unique
      ⟨hdenotes, e, h⟩ ⟨hdenoted, _, hstored⟩⟩

end Codec

end RdfIndex
