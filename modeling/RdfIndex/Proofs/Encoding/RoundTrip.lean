import RdfIndex.Encoding.Value
import RdfIndex.Proofs.Encoding.Literal

/-!
# Terms read back

What is read from an encoded term is the term, for every vocabulary, every threshold of compression
and every term that can be encoded.  The induction is on the term: a quoted triple holds its subject
and its object as encoded terms, and the shorter regions they are read from end where they end.

Lengths and positions are numbers of sixty-four bits, so byte strings that reach `positionLimit` are
left out.  No byte string in memory does.
-/

namespace RdfIndex.Codec

open Reader (Reads ReadsAll reads_word readsAll_rest readsAll_text reads_withLength)

variable {codec : Codec}

theorem reads_readTag (tag : Tag) : Reads readTag [tag.byte] tag := by
  have hword := reads_word 1 tag.byte.toNat_lt
  have hbyte : Bytes.toBigEndian 1 tag.byte.toNat = [tag.byte] := by
    show [UInt8.ofNat tag.byte.toNat] = [tag.byte]
    rw [UInt8.ofNat_toNat]
  rw [hbyte] at hword
  refine Reads.last hword (Reader.reads_check ?_)
  rw [UInt8.ofNat_toNat, Tag.ofByte, Tag.ofByte?_byte]

/-- The tag of an encoded value is read off and the payload is left. -/
theorem readTag_bytes (e : Encoded) {offset : Nat} (h : offset + e.bytes.length < positionLimit) :
    readTag ⟨offset, e.bytes⟩ = (.ok e.tag, ⟨offset + 1, e.payload⟩) := by
  rw [Encoded.bytes, List.length_cons] at h
  exact reads_readTag e.tag offset e.payload (by rw [List.length_singleton]; omega)

/-! ## One tag -/

theorem read_iri {c c' : Cursor} {form : IriForm} (h : readTag c = (.ok (.iri form), c')) :
    codec.read c = (Term.iri <$> codec.vocabulary.readIri form) c' := by
  rw [read]
  split <;> next htag => rw [h] at htag; cases htag <;> rfl

theorem read_blank {c c' : Cursor} (h : readTag c = (.ok .blank, c')) :
    codec.read c = (Term.blank <$> Reader.text) c' := by
  rw [read]
  split <;> next htag => rw [h] at htag; cases htag <;> rfl

theorem read_literal {c c' : Cursor} {form : LiteralForm}
    (h : readTag c = (.ok (.literal form), c')) :
    codec.read c = (Term.literal <$> codec.readLiteral form) c' := by
  rw [read]
  split <;> next htag => rw [h] at htag; cases htag <;> rfl

/-- A literal with its datatype: the datatype is read from its own region. -/
theorem read_datatyped {c c1 c2 : Cursor} {d : Bytes} {datatype : Term}
    (h : readTag c = (.ok .datatyped, c1)) (hd : Reader.withLength c1 = (.ok d, c2))
    (hread : finish (codec.read (.start d)) = .ok datatype) :
    codec.read c
      = (do
          let datatype ← Reader.check (datatypeOf datatype)
          return Term.literal (.typed (← Reader.text) datatype) : Reader Term) c2 := by
  rw [read]
  split
  case h_5 =>
    next htag =>
    rw [h] at htag
    cases htag
    split
    · next hd' =>
      rw [hd] at hd'
      cases hd'
    · next hd' =>
      rw [hd] at hd'
      cases hd'
      rw [hread]
  all_goals
    next htag =>
    rw [h] at htag
    cases htag

/-- A quoted triple: each member is read from its own region, the object from what is left. -/
theorem read_triple {c c1 c2 c3 : Cursor} {s p : Bytes} {subject predicate object : Term}
    (h : readTag c = (.ok .triple, c1)) (hs : Reader.withLength c1 = (.ok s, c2))
    (hsubject : finish (codec.read (.start s)) = .ok subject)
    (hp : Reader.withLength c2 = (.ok p, c3))
    (hpredicate : finish (codec.read (.start p)) = .ok predicate)
    (hobject : finish (codec.read (.start c3.rest)) = .ok object) :
    codec.read c
      = (do
          let _ ← Reader.rest
          let predicate ← Reader.check (predicateOf predicate)
          return Term.triple subject predicate object : Reader Term) c3 := by
  rw [read]
  split
  case h_6 =>
    next htag =>
    rw [h] at htag
    cases htag
    split
    · next hs' =>
      rw [hs] at hs'
      cases hs'
    · next hs' =>
      rw [hs] at hs'
      cases hs'
      rw [hsubject]
      simp only
      split
      · next hp' =>
        rw [hp] at hp'
        cases hp'
      · next hp' =>
        rw [hp] at hp'
        cases hp'
        rw [hpredicate]
        simp only
        rw [hobject]
  all_goals
    next htag =>
    rw [h] at htag
    cases htag

/-! ## Whole terms -/

/-- What takes all of a region leaves nothing of it. -/
theorem finish_read {bytes : Bytes} {t : Term} (h : ReadsAll codec.read bytes t)
    (hlimit : bytes.length < positionLimit) : finish (codec.read (.start bytes)) = .ok t := by
  rw [Cursor.start, h 0 (by omega)]
  rfl

/-- A region holds the tag and then the payload. -/
theorem end_eq (e : Encoded) (offset : Nat) :
    offset + e.bytes.length = offset + 1 + e.payload.length := by
  rw [Encoded.bytes, List.length_cons]
  omega

/-- What reads the payload after the tag reads the term. -/
theorem readsAll_read_of_tag {e : Encoded} {t : Term} {r : Reader Term}
    (htag : ∀ {c c' : Cursor}, readTag c = (.ok e.tag, c') → codec.read c = r c')
    (h : ReadsAll r e.payload t) : ReadsAll codec.read e.bytes t := by
  intro offset hlimit
  rw [htag (readTag_bytes e hlimit), h (offset + 1) (end_eq e offset ▸ hlimit), end_eq]

theorem readsAll_read_iri (codec : Codec) (iri : String) :
    ReadsAll codec.read (codec.encodeIri iri).bytes (.iri iri) := by
  obtain ⟨form, htag, hread⟩ := codec.vocabulary.readsIri_encodeIri iri
  refine readsAll_read_of_tag (fun h => ?_) (hread.map Term.iri)
  rw [encodeIri, htag] at h
  exact read_iri h

theorem readsAll_read_datatyped (label datatype : String) :
    ReadsAll codec.read (codec.encodeDatatyped label datatype).bytes
      (.literal (.typed label datatype)) := by
  intro offset hlimit
  have htag := readTag_bytes (codec.encodeDatatyped label datatype) hlimit
  rw [end_eq] at hlimit ⊢
  have hpayload : (codec.encodeDatatyped label datatype).payload
      = Varint.withLength (codec.encodeIri datatype).bytes ++ Utf8.bytes label := rfl
  rw [hpayload] at htag hlimit ⊢
  have hlength := Varint.length_lt_withLength (codec.encodeIri datatype).bytes
  rw [List.length_append] at hlimit ⊢
  have hd := reads_withLength (codec.encodeIri datatype).bytes (offset + 1) (Utf8.bytes label)
    (by omega)
  have hdatatype := finish_read (codec.readsAll_read_iri datatype) (by omega)
  have htext : ReadsAll (do
      let datatype ← Reader.check (datatypeOf (.iri datatype))
      return Term.literal (.typed (← Reader.text) datatype)) (Utf8.bytes label)
      (.literal (.typed label datatype)) :=
    ReadsAll.check rfl (readsAll_text label).ret
  rw [read_datatyped htag hd hdatatype, htext _ (by omega), Nat.add_assoc (offset + 1)]

theorem readsAll_read_triple {s o : Term} {p : String} {subject object : Encoded}
    (hs : ReadsAll codec.read subject.bytes s) (ho : ReadsAll codec.read object.bytes o) :
    ReadsAll codec.read
      (Encoded.bytes ⟨.triple, Varint.withLength subject.bytes
        ++ Varint.withLength (codec.encodeIri p).bytes ++ object.bytes⟩)
      (.triple s p o) := by
  intro offset hlimit
  have htag := readTag_bytes ⟨.triple, Varint.withLength subject.bytes
    ++ Varint.withLength (codec.encodeIri p).bytes ++ object.bytes⟩ hlimit
  rw [end_eq] at hlimit ⊢
  simp only [List.append_assoc] at htag hlimit ⊢
  rw [List.length_append, List.length_append] at hlimit ⊢
  have hsubject := reads_withLength subject.bytes (offset + 1)
    (Varint.withLength (codec.encodeIri p).bytes ++ object.bytes) (by omega)
  have hpredicate := reads_withLength (codec.encodeIri p).bytes
    (offset + 1 + (Varint.withLength subject.bytes).length) object.bytes (by omega)
  have hslength := Varint.length_lt_withLength subject.bytes
  have hplength := Varint.length_lt_withLength (codec.encodeIri p).bytes
  have hobject : object.bytes.length < positionLimit := by omega
  have hmembers : ReadsAll (do
      let _ ← Reader.rest
      let predicate ← Reader.check (predicateOf (.iri p))
      return Term.triple s predicate o) object.bytes (.triple s p o) := by
    intro offset hlimit
    rw [Reader.bind_ok (readsAll_rest object.bytes offset hlimit)]
    rfl
  rw [read_triple htag hsubject (finish_read hs (by omega)) hpredicate
    (finish_read (codec.readsAll_read_iri p) (by omega)) (finish_read ho hobject),
    hmembers _ (by omega)]
  simp only [Nat.add_assoc]

/-- An encoded term is read as the term, at the end of any region. -/
theorem readsAll_read {t : Term} : ∀ {e : Encoded}, codec.encode t = .ok e →
    ReadsAll codec.read e.bytes t := by
  induction t with
  | iri text =>
    intro e h
    cases h
    exact codec.readsAll_read_iri text
  | blank label =>
    intro e h
    cases h
    exact readsAll_read_of_tag read_blank ((readsAll_text label).map Term.blank)
  | literal l =>
    intro e h
    rcases readsLiteral_encodeLiteral h with ⟨form, htag, hread⟩ | ⟨label, datatype, rfl, rfl⟩
    · refine readsAll_read_of_tag (fun h => ?_) (hread.map Term.literal)
      rw [htag] at h
      exact read_literal h
    · exact readsAll_read_datatyped label datatype
  | triple s p o ihs iho =>
    intro e h
    rw [encode] at h
    obtain ⟨subject, hs, h⟩ := ok_of_bind h
    obtain ⟨object, ho, h⟩ := ok_of_bind h
    cases h
    exact readsAll_read_triple (ihs hs) (iho ho)

/-- The term of an encoded term is the term. -/
theorem readValue_bytes {t : Term} {e : Encoded} (h : codec.encode t = .ok e)
    (hlimit : e.bytes.length < positionLimit) : codec.readValue e.bytes = .ok t :=
  finish_read (readsAll_read h) hlimit

/-- Terms with the same encoded bytes are the same. -/
theorem eq_of_bytes_eq {t t' : Term} {e e' : Encoded} (h : codec.encode t = .ok e)
    (h' : codec.encode t' = .ok e') (hlimit : e.bytes.length < positionLimit)
    (hbytes : e.bytes = e'.bytes) : t = t' := by
  have hread := readValue_bytes h hlimit
  rw [hbytes, readValue_bytes h' (hbytes ▸ hlimit)] at hread
  exact (Except.ok.inj hread).symm

/-- Encoding loses nothing.  For every vocabulary and every threshold, the value of the bytes of an
encoded term is the term, so that terms with the same bytes are the same. -/
theorem readValue_encode (codec : Codec) :
    (∀ (t : Term) (e : Encoded), codec.encode t = .ok e → e.bytes.length < positionLimit →
      codec.readValue e.bytes = .ok t)
    ∧ ∀ (t t' : Term) (e e' : Encoded), codec.encode t = .ok e → codec.encode t' = .ok e' →
      e.bytes.length < positionLimit → e.bytes = e'.bytes → t = t' :=
  ⟨fun _ _ h hlimit => readValue_bytes h hlimit,
    fun _ _ _ _ h h' hlimit hbytes => eq_of_bytes_eq h h' hlimit hbytes⟩

/-- The codec without entries to refer to. -/
def bare : Codec := ⟨.buildFirst .empty, defaultThreshold⟩

theorem readValue_encode_bare :
    bare.encode (.triple (.blank "b") "urn:p" (.literal (.typed "-7" Xsd.short)))
        = .ok ⟨.triple, [2, 0x10, 0x62, 3, 0x02, 6, 0x70, 0x33, 0xFF, 0xF9]⟩
      ∧ bare.readValue [0x18, 2, 0x10, 0x62, 3, 0x02, 6, 0x70, 0x33, 0xFF, 0xF9]
        = .ok (.triple (.blank "b") "urn:p" (.literal (.typed "-7" Xsd.short))) := by
  have hencode : bare.encode (.triple (.blank "b") "urn:p" (.literal (.typed "-7" Xsd.short)))
      = .ok ⟨.triple, [2, 0x10, 0x62, 3, 0x02, 6, 0x70, 0x33, 0xFF, 0xF9]⟩ :=
    ok_of_toOption (by decide +kernel)
  exact ⟨hencode, (readValue_encode bare).1 _ _ hencode (by decide)⟩

end RdfIndex.Codec
