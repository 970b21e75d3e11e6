import RdfIndex.Encoding.Value
import RdfIndex.Proofs.Results

/-!
# What is written into a buffer

Every writer appends.  A term is written after the bytes that are there as the encoded form of the
term, whatever these bytes are (`putTerm_eq`).  A writer of native literals either appends a form
and says so, or leaves the buffer as it was (`Buffer.appended`), which is why the generic form can
follow.
-/

namespace RdfIndex

namespace Buffer

/-! ## Pieces -/

theorem putVarint_eq (out : Bytes) (n : Nat) : putVarint out n = out ++ Varint.encode n := by
  fun_induction putVarint out n with
  | case1 out n hlast =>
    rw [Varint.encode, if_pos hlast]
    rfl
  | case2 out n hmore ih =>
    rw [ih, Varint.encode.eq_def n, if_neg hmore, push, List.append_assoc]
    rfl

theorem putVarintInt_eq (out : Bytes) (i : Int) :
    putVarintInt out i = out ++ Varint.encodeInt i :=
  putVarint_eq out (Varint.fold i)

theorem putWithLength_eq (out bytes : Bytes) :
    putWithLength out bytes = out ++ Varint.withLength bytes := by
  rw [putWithLength, putVarint_eq, extend, List.append_assoc]
  rfl

/-- A tag and a payload are the bytes of an encoded value. -/
theorem put_eq (out : Bytes) (tag : Tag) (payload : Bytes) :
    put out tag payload = out ++ (Encoded.mk tag payload).bytes :=
  List.append_assoc out [tag.byte] payload

theorem extend_put (out : Bytes) (tag : Tag) (first later : Bytes) :
    extend (put out tag first) later = out ++ (Encoded.mk tag (first ++ later)).bytes := by
  rw [put_eq, extend, List.append_assoc]
  rfl

theorem push_tag (out : Bytes) (tag : Tag) : push out tag.byte = out ++ (Encoded.mk tag []).bytes :=
  rfl

/-! ## IRIs -/

theorem putIri_eq (v : Vocabulary) (out : Bytes) (iri : String) :
    putIri v out iri = out ++ (v.encodeIri iri).bytes := by
  rw [putIri, Vocabulary.encodeIri]
  cases v.iris.hashOf? iri with
  | some hash => exact put_eq out _ _
  | none =>
    cases v.matchId? iri with
    | some m => exact extend_put out _ _ _
    | none =>
      cases v.matchNamespace? iri with
      | some m => exact extend_put out _ _ _
      | none =>
        simp only [Vocabulary.encodePlainIri]
        cases IriStart.longest? iri with
        | some found =>
          exact extend_put out _ [UInt8.ofNat found.1] _
        | none => exact put_eq out _ _

/-! ## Literals -/

/-- A buffer with an encoded value after it, if there is one, and whether there is. -/
def appended (out : Bytes) (e : Option Encoded) : Bytes × Bool :=
  ((e.map fun e => out ++ e.bytes).getD out, e.isSome)

theorem putString_eq (threshold : Nat) (out : Bytes) (label : String) :
    putString threshold out label = out ++ (Encoded.ofString threshold label).bytes := by
  simp only [putString, Encoded.ofString, put_eq]
  by_cases hlong : threshold < (Utf8.bytes label).length
  · cases hcan : Snappy.canCompress (Utf8.bytes label).length with
    | true => simp [hlong]
    | false => simp [hlong]
  · simp [hlong]

theorem putFixed_eq (out : Bytes) (form : LiteralForm) (payload : Option Bytes) :
    putFixed out form payload
      = appended out (payload.map fun payload => ⟨.literal form, payload⟩) := by
  cases payload with
  | some payload => exact congrArg (·, true) (put_eq out _ payload)
  | none => rfl

/-- An integer that fits a width fits a greater one. -/
theorem fits_of_le {width wider : Nat} {i : Int} (hle : width ≤ wider)
    (h : Integer.fits width i = true) : Integer.fits wider i = true := by
  have hpow : (Nat.pow 256 width : Int) ≤ Nat.pow 256 wider :=
    Int.ofNat_le.2 (Nat.pow_le_pow_right (by decide) hle)
  simp only [Integer.fits, Bool.and_eq_true, decide_eq_true_eq] at h ⊢
  omega

theorem putInteger_eq (out : Bytes) (label : String) :
    putInteger out label = appended out (Encoded.ofInteger? label) := by
  rw [putInteger, Encoded.ofInteger?, Integer.readFitting?]
  cases hread : Integer.read? label.toList with
  | none =>
    have hcanonical : Integer.isCanonical label.toList = false := by
      rw [Bool.eq_false_iff]
      intro hcanonical
      rw [Integer.read?, if_pos hcanonical] at hread
      cases hread
    simp only [Option.filter_none, hcanonical]
    rfl
  | some i =>
    have hcanonical : Integer.isCanonical label.toList = true := by
      rw [Integer.read?] at hread
      split at hread
      · assumption
      · cases hread
    by_cases hfits : Integer.fits 8 i = true
    · simp only [Option.filter_some_pos hfits, if_pos hfits]
      split
      · exact putFixed_eq out _ _
      · split
        · exact putFixed_eq out _ _
        · exact putFixed_eq out _ _
    · have htwo : ¬ Integer.fits 2 i = true := mt (fits_of_le (by decide)) hfits
      have hfour : ¬ Integer.fits 4 i = true := mt (fits_of_le (by decide)) hfits
      have hnone : (some i).filter (Integer.fits 8) = none :=
        Option.filter_some_neg (Bool.eq_false_iff.2 hfits)
      simp only [hnone, hcanonical, if_neg htwo, if_neg hfour, if_neg hfits, if_true, put_eq]
      rfl

theorem putDecimal_eq (out : Bytes) (label : String) :
    putDecimal out label = appended out (Encoded.ofDecimal? label) := by
  rw [putDecimal, Encoded.ofDecimal?]
  cases Decimal.read? label.toList with
  | some d =>
    refine congrArg (·, true) ?_
    rw [putVarintInt_eq, putVarintInt_eq, push_tag, List.append_assoc, List.append_assoc]
    rfl
  | none =>
    cases Decimal.isCanonical label.toList with
    | true => exact congrArg (·, true) (put_eq out _ _)
    | false => rfl

open Calendar

theorem putDateTime_eq (threshold : Nat) (out : Bytes) (label : String) :
    putDateTime out label = (Encoded.ofNative? threshold .dateTime label).map (appended out) := by
  rw [putDateTime, Encoded.ofNative?]
  cases DateTime.read? label with
  | error e => rfl
  | ok v =>
    cases v with
    | none => rfl
    | some v =>
      by_cases hlabel : v.text = label
      · have hkept : (some v).filter (·.text == label) = some v :=
          Option.filter_some_pos (beq_iff_eq.2 hlabel)
        have hbytes : extend (extend (put out (.literal .dateTime)
            (Bytes.ofInt 8 (v.localSeconds - v.offset.getD 0 * 60)))
            (Bytes.toBigEndian 4 v.time.nano)) (zoneBytes v.offset)
              = out ++ (Encoded.mk (.literal .dateTime) v.bytes).bytes := by
          rw [extend_put, extend, List.append_assoc]
          rfl
        simp only [ok_bind, hkept, hlabel, ne_eq, not_true_eq_false, if_false, hbytes]
        rfl
      · have hdropped : (some v).filter (·.text == label) = none :=
          Option.filter_some_neg (beq_eq_false_iff_ne.2 hlabel)
        simp only [ok_bind, hdropped, ne_eq, hlabel, not_false_eq_true, if_true]
        rfl

theorem putDate_eq (threshold : Nat) (out : Bytes) (label : String) :
    putDate out label = (Encoded.ofNative? threshold .date label).map (appended out) := by
  rw [putDate, Encoded.ofNative?]
  cases ZonedDate.read? label with
  | error e => rfl
  | ok v =>
    simp only [ok_bind]
    cases v.filter (·.text == label) with
    | none => rfl
    | some v => exact congrArg (fun out => Except.ok (out, true)) (extend_put out _ _ _)

theorem putTime_eq (threshold : Nat) (out : Bytes) (label : String) :
    putTime out label = (Encoded.ofNative? threshold .time label).map (appended out) := by
  rw [putTime, Encoded.ofNative?]
  cases ZonedTime.read? label with
  | error e => rfl
  | ok v =>
    simp only [ok_bind]
    cases v.filter (·.text == label) with
    | none => rfl
    | some v => exact congrArg (fun out => Except.ok (out, true)) (extend_put out _ _ _)

/-- A value of fixed width is written in its form. -/
theorem putFixed_map {α : Type} (out : Bytes) (form : LiteralForm) (value : Option α)
    (bytes : α → Bytes) :
    putFixed out form (value.map bytes)
      = appended out (value.map fun a => ⟨.literal form, bytes a⟩) := by
  rw [putFixed_eq, Option.map_map]
  rfl

/-- A native form is appended if there is one, and nothing is written if there is none. -/
theorem putNative_eq (threshold : Nat) (out : Bytes) (type : NativeType) (label : String) :
    putNative threshold out type label
      = (Encoded.ofNative? threshold type label).map (appended out) := by
  cases type with
  | string => exact congrArg (fun out => Except.ok (out, true)) (putString_eq threshold out label)
  | boolean =>
    rw [putNative, Encoded.ofNative?]
    cases readBoolean? label with
    | none => rfl
    | some b => rfl
  | byte => exact congrArg Except.ok (putFixed_map out .byte _ _)
  | short => exact congrArg Except.ok (putFixed_map out .short _ _)
  | int => exact congrArg Except.ok (putFixed_map out .int _ _)
  | long => exact congrArg Except.ok (putFixed_map out .long _ _)
  | float => exact congrArg Except.ok (putFixed_map out .float _ _)
  | double => exact congrArg Except.ok (putFixed_map out .double _ _)
  | integer => exact congrArg Except.ok (putInteger_eq out label)
  | decimal => exact congrArg Except.ok (putDecimal_eq out label)
  | dateTime => exact putDateTime_eq threshold out label
  | date => exact putDate_eq threshold out label
  | time => exact putTime_eq threshold out label
  | xml => exact congrArg (fun out => Except.ok (out, true)) (put_eq out _ _)
  | wkt => exact congrArg (fun out => Except.ok (out, true)) (put_eq out _ _)

theorem putTagged_eq (codec : Codec) (out : Bytes) (label language : String) :
    putTagged codec.vocabulary out label language
      = out ++ (codec.encodeTagged label language).bytes := by
  rw [putTagged, Codec.encodeTagged]
  cases codec.vocabulary.languages.hashOf? language with
  | some hash => exact extend_put out _ _ _
  | none =>
    simp only [putWithLength_eq, push_tag, extend, List.append_assoc]
    rfl

theorem putDatatyped_eq (codec : Codec) (out : Bytes) (label datatype : String) :
    putDatatyped codec.vocabulary out label datatype
      = out ++ (codec.encodeDatatyped label datatype).bytes := by
  simp only [putDatatyped, putIri_eq, putWithLength_eq, push_tag, extend, List.append_assoc,
    List.nil_append]
  rfl

/-- The generic form follows the bytes that were there, since no native form was written. -/
theorem putLiteral_eq (codec : Codec) (out : Bytes) (l : Literal) :
    putLiteral codec out l = (codec.encodeLiteral l).map fun e => out ++ e.bytes := by
  cases l with
  | tagged label language _ => exact congrArg Except.ok (putTagged_eq codec out label language)
  | typed label datatype =>
    rw [putLiteral, Codec.encodeLiteral]
    cases NativeType.ofIri? datatype with
    | none => exact congrArg Except.ok (putDatatyped_eq codec out label datatype)
    | some type =>
      simp only [putNative_eq]
      cases Encoded.ofNative? codec.threshold type label with
      | error e => rfl
      | ok native =>
        cases native with
        | none => exact congrArg Except.ok (putDatatyped_eq codec out label datatype)
        | some e => rfl

/-! ## Terms -/

/-- A term is written after the bytes that are there, and these stay as they are. -/
theorem putTerm_eq (codec : Codec) (t : Term) :
    ∀ out : Bytes, putTerm codec out t = (codec.encode t).map fun e => out ++ e.bytes := by
  induction t with
  | iri text => exact fun out => congrArg Except.ok (putIri_eq codec.vocabulary out text)
  | blank label => exact fun out => congrArg Except.ok (put_eq out _ _)
  | literal l => exact fun out => putLiteral_eq codec out l
  | triple s p o hs ho =>
    intro out
    rw [putTerm, Codec.encode, hs]
    cases codec.encode s with
    | error e => rfl
    | ok subject =>
      show putTerm codec _ o = Except.map _ (codec.encode o >>= _)
      rw [ho]
      cases codec.encode o with
      | error e => rfl
      | ok object =>
        refine congrArg Except.ok ?_
        simp only [putIri_eq, putWithLength_eq, push_tag, clear, List.append_assoc, List.nil_append]
        rfl

end Buffer

/-- A term is written into a buffer after all that is there, as its encoded form, and takes the
place from the old end of the buffer to the new one. -/
theorem Codec.encodeInto_eq (codec : Codec) (t : Term) (buffer : Bytes) :
    codec.encodeInto t buffer = (codec.encode t).map fun e =>
      (buffer ++ e.bytes, buffer.length, buffer.length + e.bytes.length) := by
  rw [encodeInto, Buffer.putTerm_eq]
  cases codec.encode t with
  | error e => rfl
  | ok e =>
    show Except.ok (buffer ++ e.bytes, buffer.length, (buffer ++ e.bytes).length) = .ok _
    rw [List.length_append]

end RdfIndex
