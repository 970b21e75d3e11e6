import RdfIndex.Encoding.Literal
import RdfIndex.Proofs.Bytes.Snappy
import RdfIndex.Proofs.Encoding.Iri
import RdfIndex.Proofs.Encoding.Moment
import RdfIndex.Proofs.Number.Labels

/-!
# Literals read back

A literal that is stored in the form of a native datatype comes back with its label and its
datatype.  A number has to have been read off the very label that it is written as.  For integers
and decimals that holds of every canonical label, for floating-point numbers, dates and times it is
checked when the literal is encoded.
-/

namespace RdfIndex

open Reader (Reads ReadsAll reads_pure reads_int reads_word reads_hash readsAll_rest readsAll_text)

theorem NativeType.iri_of_ofIri? {iri : String} {type : NativeType}
    (h : NativeType.ofIri? iri = some type) : type.iri = iri := by
  rw [NativeType.ofIri?] at h
  exact beq_iff_eq.1 (List.find?_some (p := fun type : NativeType => type.iri == iri) h)

namespace Codec

/-- An encoded literal: its tag is that of a form whose reader gives the literal. -/
def ReadsLiteral (codec : Codec) (e : Encoded) (l : Literal) : Prop :=
  ∃ form, e.tag = .literal form ∧ ReadsAll (codec.readLiteral form) e.payload l

variable {codec : Codec} {label : String} {e : Encoded}

/-! ## Labels -/

theorem readsAll_readLabel (label datatype : String) :
    ReadsAll (readLabel datatype) (Utf8.bytes label) (.typed label datatype) :=
  (readsAll_text label).ret

theorem readsLiteral_ofString (threshold : Nat) (label : String) :
    ReadsLiteral codec (Encoded.ofString threshold label) (.typed label Xsd.string) := by
  rw [Encoded.ofString]
  split
  · next h =>
    refine ⟨.compressedString, rfl, ?_⟩
    intro offset hlimit
    have hrest := readsAll_rest (Snappy.compress (Utf8.bytes label)) offset hlimit
    show readCompressed _ = _
    rw [readCompressed, Reader.bind_ok hrest, Snappy.decompress_compress h.2]
    show (Reader.check (Reader.textOf (Utf8.bytes label)) >>= _) _ = _
    rw [Reader.textOf_bytes]
    rfl
  · exact ⟨.string, rfl, readsAll_readLabel label Xsd.string⟩

theorem readsLiteral_encodeTagged {language : String} (hne : language ≠ "") :
    ReadsLiteral codec (codec.encodeTagged label language) (.tagged label language hne) := by
  have hlang : Literal.lang label language = .tagged label language hne := dif_neg hne
  rw [← hlang, encodeTagged]
  split
  · next hash hhash =>
    refine ⟨.taggedHash, rfl, ?_⟩
    refine ReadsAll.bind (reads_hash hash) ?_
    refine ReadsAll.found (HashTable.ofHash?_of_hashOf? hhash) ?_
    exact (readsAll_text label).ret
  · refine ⟨.tagged, rfl, ?_⟩
    refine ReadsAll.bind (Reader.reads_withLength (Utf8.bytes language)) ?_
    refine ReadsAll.check (Reader.textOf_bytes language) ?_
    rw [if_neg hne]
    exact (readsAll_text label).ret

/-! ## Numbers -/

theorem readsLiteral_boolean (codec : Codec) (b : Bool) :
    ReadsLiteral codec ⟨.literal (if b then .yes else .no), []⟩ (.ofBool b) := by
  cases b with
  | true => exact ⟨.yes, rfl, (reads_pure (Literal.ofBool true)).all⟩
  | false => exact ⟨.no, rfl, (reads_pure (Literal.ofBool false)).all⟩

theorem text_of_ofInt {i : Int} (h : Numeral.ofInt i = label.toList) : Numeral.text i = label := by
  rw [Numeral.text, h, String.ofList_toList]

theorem readsAll_readFixed {width : Nat} {i : Int} (datatype : String)
    (hlabel : Numeral.ofInt i = label.toList) (hfits : Integer.fits width i = true) :
    ReadsAll (readFixed width datatype) (Bytes.ofInt width i) (.typed label datatype) := by
  have hread := (reads_int hfits).all.ret (f := fun i => Literal.ofInt i datatype)
  rwa [Literal.ofInt, text_of_ofInt hlabel] at hread

/-- An integer of fixed width, for a form that is read as one. -/
theorem readsLiteral_ofFixed? {form : LiteralForm} {width : Nat} {datatype : String}
    (hform : codec.readLiteral form = readFixed width datatype)
    (h : Encoded.ofFixed? form width label = some e) :
    ReadsLiteral codec e (.typed label datatype) := by
  obtain ⟨i, hread, rfl⟩ := Option.map_eq_some_iff.1 h
  obtain ⟨hlabel, hfits⟩ := Integer.ofInt_of_readFitting? hread
  refine ⟨form, rfl, ?_⟩
  rw [hform]
  exact readsAll_readFixed datatype hlabel hfits

theorem readsLiteral_ofInteger? (h : Encoded.ofInteger? label = some e) :
    ReadsLiteral codec e (.typed label Xsd.integer) := by
  rw [Encoded.ofInteger?] at h
  split at h
  · cases h
  · next i hread =>
    have hlabel := Integer.ofInt_of_read? hread
    split at h
    · next hfits =>
      cases h
      exact ⟨.integer2, rfl, readsAll_readFixed Xsd.integer hlabel hfits⟩
    split at h
    · next hfits =>
      cases h
      exact ⟨.integer4, rfl, readsAll_readFixed Xsd.integer hlabel hfits⟩
    split at h
    · next hfits =>
      cases h
      exact ⟨.integer8, rfl, readsAll_readFixed Xsd.integer hlabel hfits⟩
    · cases h
      exact ⟨.integerText, rfl, readsAll_readLabel label Xsd.integer⟩

theorem readsAll_readDecimal {d : Decimal} (hfits : Integer.fits 8 d.unscaled = true)
    (hscale : d.scale ≤ Decimal.maxScale) :
    ReadsAll readDecimal (Varint.encodeInt d.scale ++ Varint.encodeInt d.unscaled)
      (.decimal d) := by
  have hok : ¬ ((d.scale : Int) < 0 ∨ (Decimal.maxScale : Int) < (d.scale : Int)) := by omega
  refine ReadsAll.bind (Reader.reads_varintInt (Decimal.fits_scale hscale)) ?_
  rw [if_neg hok]
  exact (Reader.reads_varintInt hfits).all.ret
    (f := fun unscaled => Literal.decimal ⟨unscaled, d.scale⟩)

theorem readsLiteral_ofDecimal? (h : Encoded.ofDecimal? label = some e) :
    ReadsLiteral codec e (.typed label Xsd.decimal) := by
  rw [Encoded.ofDecimal?] at h
  split at h
  · next d hread =>
    obtain ⟨hlabel, hfits, hscale⟩ := Decimal.toChars_of_read? hread
    cases h
    have htext : d.text = label := by rw [Decimal.text, hlabel, String.ofList_toList]
    refine ⟨.decimal, rfl, ?_⟩
    have hall := readsAll_readDecimal hfits hscale
    rwa [Literal.decimal, htext] at hall
  · rw [Option.ite_none_right_eq_some] at h
    cases h.2
    exact ⟨.decimalText, rfl, readsAll_readLabel label Xsd.decimal⟩

/-- A floating-point number, for a form that is read as one of the format. -/
theorem readsLiteral_ofFloating? {form : LiteralForm} {f : BinaryFormat} {datatype : String}
    (hlt : ∀ bits, Floating.read? f label.toList = some bits → bits < Nat.pow 256 f.width)
    (hform : codec.readLiteral form
      = Reader.word f.width >>= fun bits => Pure.pure (.typed (Floating.text f bits) datatype))
    (h : Encoded.ofFloating? form f label = some e) :
    ReadsLiteral codec e (.typed label datatype) := by
  obtain ⟨bits, hread, rfl⟩ := Option.map_eq_some_iff.1 h
  have htext : Floating.text f bits = label := by
    rw [Floating.text, Floating.toChars_of_read? hread, String.ofList_toList]
  refine ⟨form, rfl, ?_⟩
  have hall := (reads_word _ (hlt bits hread)).all.ret
    (f := fun bits => Literal.typed (Floating.text f bits) datatype)
  rw [hform]
  rwa [htext] at hall

/-! ## All native datatypes -/

/-- What is kept of a result that was compared with the label. -/
theorem of_checked_ok {α : Type} {result : Except InsideCharacter (Option α)} {text : α → String}
    {stored : α → Encoded}
    (h : (do let v ← result; return (v.filter (text · == label)).map stored) = .ok (some e)) :
    ∃ a, result = .ok (some a) ∧ text a = label ∧ e = stored a := by
  obtain ⟨v, hresult, h⟩ := ok_of_bind h
  obtain ⟨a, hfilter, rfl⟩ := Option.map_eq_some_iff.1 (Except.ok.inj h)
  obtain ⟨rfl, hlabel⟩ := Option.filter_eq_some_iff.1 hfilter
  exact ⟨a, hresult, beq_iff_eq.1 hlabel, rfl⟩

/-- What is stored for a label of a native datatype is read back as the label and the datatype. -/
theorem readsLiteral_ofNative? {threshold : Nat} {type : NativeType}
    (h : Encoded.ofNative? threshold type label = .ok (some e)) :
    ReadsLiteral codec e (.typed label type.iri) := by
  cases type with
  | string =>
    cases h
    exact readsLiteral_ofString threshold label
  | boolean =>
    obtain ⟨b, hb, rfl⟩ := Option.map_eq_some_iff.1 (Except.ok.inj h)
    have htext : booleanText b = label := by
      rw [readBoolean?] at hb
      split at hb
      · next hlabel =>
        cases hb
        exact hlabel.symm
      · rw [Option.ite_none_right_eq_some] at hb
        cases hb.2
        exact hb.1.symm
    have hread := readsLiteral_boolean codec b
    rwa [Literal.ofBool, htext] at hread
  | byte => exact readsLiteral_ofFixed? rfl (Except.ok.inj h)
  | short => exact readsLiteral_ofFixed? rfl (Except.ok.inj h)
  | int => exact readsLiteral_ofFixed? rfl (Except.ok.inj h)
  | long => exact readsLiteral_ofFixed? rfl (Except.ok.inj h)
  | float =>
    exact readsLiteral_ofFloating? (fun _ => Floating.read?_binary32_lt) rfl (Except.ok.inj h)
  | double =>
    exact readsLiteral_ofFloating? (fun _ => Floating.read?_binary64_lt) rfl (Except.ok.inj h)
  | integer => exact readsLiteral_ofInteger? (Except.ok.inj h)
  | decimal => exact readsLiteral_ofDecimal? (Except.ok.inj h)
  | dateTime =>
    obtain ⟨v, hread, rfl, rfl⟩ := of_checked_ok h
    obtain ⟨hyear, hzone⟩ := Calendar.DateTime.of_read? hread
    exact ⟨.dateTime, rfl, (Calendar.reads_dateTime hyear hzone).all.ret⟩
  | date =>
    obtain ⟨v, hread, rfl, rfl⟩ := of_checked_ok h
    obtain ⟨hyear, hzone⟩ := Calendar.ZonedDate.of_read? hread
    exact ⟨.date, rfl, (Calendar.reads_zonedDate hyear hzone).all.ret⟩
  | time =>
    obtain ⟨v, hread, rfl, rfl⟩ := of_checked_ok h
    exact ⟨.time, rfl, (Calendar.reads_zonedTime (Calendar.ZonedTime.of_read? hread)).all.ret⟩
  | xml =>
    cases h
    exact ⟨.xml, rfl, readsAll_readLabel label Rdf.xmlLiteral⟩
  | wkt =>
    cases h
    exact ⟨.wkt, rfl, readsAll_readLabel label Geo.wktLiteral⟩

/-- A literal is stored in a form of its own, or else as its datatype and its label. -/
theorem readsLiteral_encodeLiteral {l : Literal} (h : codec.encodeLiteral l = .ok e) :
    ReadsLiteral codec e l
      ∨ ∃ label datatype, l = .typed label datatype ∧ e = codec.encodeDatatyped label datatype := by
  cases l with
  | tagged label language hne =>
    cases h
    exact .inl (readsLiteral_encodeTagged hne)
  | typed label datatype =>
    rw [encodeLiteral] at h
    split at h
    · next type htype =>
      obtain ⟨native, hnative, h⟩ := ok_of_bind h
      cases h
      cases native with
      | none => exact .inr ⟨label, datatype, rfl, rfl⟩
      | some found =>
        rw [← NativeType.iri_of_ofIri? htype]
        exact .inl (readsLiteral_ofNative? hnative)
    · cases h
      exact .inr ⟨label, datatype, rfl, rfl⟩

end Codec

end RdfIndex
