import RdfIndex.Proofs.Encoding.RoundTrip
import RdfIndex.Proofs.Encoding.Tags
import RdfIndex.Proofs.Identifier.Cache
import RdfIndex.Proofs.Statement.Parts

/-!
# Identifiers tell the truth

The tag of an encoded term tells the kind of the term, whether it is a string, and whether it is a
number with a label that its value is written as (`Codec.trueOf_encode`).  The descriptor of an
identifier repeats what the tag says, so that the identifier tells it too.
-/

namespace RdfIndex

/-! ## Tags -/

/-- A plain string or one with a language. -/
def Term.IsString : Term → Prop
  | .literal l => l.isString = true
  | _ => False

/-- A number with the label that its value is written as. -/
def Term.IsWrittenNumber : Term → Prop
  | .literal l => l.IsWrittenNumber
  | _ => False

/-- Roles say of a term what holds of it. -/
structure Roles.TrueOf (r : Roles) (t : Term) : Prop where
  kind : r.kind = t.kind
  string : r.string = true ↔ t.IsString
  numeric : r.numeric = true ↔ t.IsWrittenNumber

/-- Nothing else is said of what is no literal. -/
theorem Roles.trueOf_ofTagByte (tag : Tag) {t : Term} (hkind : tag.kind = t.kind)
    (hne : t.kind ≠ .literal) : (Roles.ofTagByte tag.byte).TrueOf t := by
  obtain ⟨hstring, hnumeric⟩ := Tag.ranges_of_kind_ne tag (hkind ▸ hne)
  have hnone : ¬ t.IsString ∧ ¬ t.IsWrittenNumber := by
    cases t with
    | literal l => exact absurd rfl hne
    | _ => exact ⟨id, id⟩
  refine ⟨(Tag.kindOfByte_byte tag).trans hkind, ?_, ?_⟩
  · exact iff_of_false (Bool.eq_false_iff.1 hstring) hnone.1
  · exact iff_of_false (Bool.eq_false_iff.1 hnumeric) hnone.2

/-- Nothing else is said of a literal that is stored with its datatype. -/
theorem Roles.trueOf_datatyped {l : Literal} (hstring : l.isString = false)
    (hnumber : ¬ l.IsWrittenNumber) : (Roles.ofTagByte Tag.datatyped.byte).TrueOf (.literal l) :=
  ⟨rfl, iff_of_false Bool.false_ne_true (Bool.eq_false_iff.1 hstring),
    iff_of_false Bool.false_ne_true hnumber⟩

theorem Literal.isString_typed (label : String) (type : NativeType) :
    (Literal.typed label type.iri).isString = (type == .string) := by
  cases type <;> rfl

/-- The form of a native datatype tells whether it is that of strings or that of numbers. -/
theorem Roles.trueOf_form {form : LiteralForm} {type : NativeType} {label : String}
    (hform : form.type? = some type)
    (hnumber : type.isNumeric = true ↔ type.WritesNumber label.toList) :
    (Roles.ofTagByte form.tagByte).TrueOf (.literal (.typed label type.iri)) := by
  refine ⟨Tag.kindOfByte_byte (.literal form), ?_, ?_⟩
  · show Tag.isStringByte form.tagByte = true ↔ (Literal.typed label type.iri).isString = true
    rw [LiteralForm.isStringByte_tagByte, hform, Literal.isString_typed]
    rfl
  · show Tag.isNumericByte form.tagByte = true ↔ (Literal.typed label type.iri).IsWrittenNumber
    rw [LiteralForm.isNumericByte_tagByte, hform, Literal.isWrittenNumber_typed_iff]
    exact hnumber

namespace Codec

variable {codec : Codec} {e : Encoded} {label : String}

/-- A label of a native datatype, in the form of the datatype or with it. -/
theorem trueOf_native {threshold : Nat} {type : NativeType} {native : Option Encoded}
    (h : Encoded.ofNative? threshold type label = .ok native) :
    (Roles.ofTagByte (native.getD (codec.encodeDatatyped label type.iri)).tag.byte).TrueOf
      (.literal (.typed label type.iri)) := by
  cases native with
  | none =>
    have hstring : (type == .string) = false := by
      cases type <;> first | rfl | cases h
    refine Roles.trueOf_datatyped ((Literal.isString_typed label type).trans hstring) ?_
    rw [Literal.isWrittenNumber_typed_iff]
    intro hwrites
    have hnumeric := NativeType.isNumeric_of_writesNumber hwrites
    exact Bool.false_ne_true ((Encoded.isSome_ofNative?_iff hnumeric h).2 hwrites)
  | some found =>
    obtain ⟨form, htag, hform⟩ := Encoded.isOfType_ofNative? h
    show (Roles.ofTagByte found.tag.byte).TrueOf _
    rw [htag]
    exact Roles.trueOf_form hform
      ⟨fun hnumeric => (Encoded.isSome_ofNative?_iff hnumeric h).1 rfl,
        NativeType.isNumeric_of_writesNumber⟩

theorem trueOf_encodeLiteral {l : Literal} (h : codec.encodeLiteral l = .ok e) :
    (Roles.ofTagByte e.tag.byte).TrueOf (.literal l) := by
  cases l with
  | tagged label language hne =>
    cases h
    rw [encodeTagged]
    split
    · exact ⟨rfl, iff_of_true rfl rfl, iff_of_false Bool.false_ne_true id⟩
    · exact ⟨rfl, iff_of_true rfl rfl, iff_of_false Bool.false_ne_true id⟩
  | typed label datatype =>
    rw [encodeLiteral] at h
    split at h
    · next type htype =>
      obtain rfl := NativeType.iri_of_ofIri? htype
      obtain ⟨native, hnative, h⟩ := ok_of_bind h
      cases h
      exact trueOf_native hnative
    · next hnone =>
      cases h
      have hother : ∀ type : NativeType, type.iri ≠ datatype := by
        rintro type rfl
        rw [NativeType.ofIri?_iri] at hnone
        cases hnone
      refine Roles.trueOf_datatyped (beq_false_of_ne (hother .string).symm) ?_
      rintro ⟨type, hiri, _⟩
      exact hother type hiri

/-- The tag of an encoded term tells the truth about the term. -/
theorem trueOf_encode {t : Term} (h : codec.encode t = .ok e) :
    (Roles.ofTagByte e.tag.byte).TrueOf t := by
  cases t with
  | iri text =>
    cases h
    obtain ⟨form, htag, _⟩ := Vocabulary.readsIri_encodeIri codec.vocabulary text
    refine Roles.trueOf_ofTagByte _ ?_ Kind.noConfusion
    rw [encodeIri, htag]
    rfl
  | blank label =>
    cases h
    exact Roles.trueOf_ofTagByte _ rfl Kind.noConfusion
  | literal l => exact trueOf_encodeLiteral h
  | triple s p o =>
    obtain ⟨subject, _, h⟩ := ok_of_bind h
    obtain ⟨object, _, h⟩ := ok_of_bind h
    cases h
    exact Roles.trueOf_ofTagByte _ rfl Kind.noConfusion

end Codec

/-! ## Identifiers -/

namespace IdFactory

/-- The descriptor of an identifier is read back as what the tag says. -/
theorem roles_derive (f : IdFactory) (e : Encoded) :
    f.roles (f.derive e) = Roles.ofTagByte e.tag.byte := by
  refine Roles.unpack_pack f.config.nibble _ (List.ne_nil_of_length_pos ?_)
  rw [TruncatedDigest.length_hash]
  exact f.config.size_pos

/-- An identifier tells the truth about the term that it is derived from. -/
theorem trueOf_of_id {f : IdFactory} {t : Term} {id : Identifier} (h : f.id t = .ok id) :
    (f.roles id).TrueOf t := by
  obtain ⟨e, he, rfl⟩ := ok_of_map h
  rw [roles_derive]
  exact Codec.trueOf_encode he

/-- A deriver gives the identifiers of its factory, whatever it remembers. -/
theorem id_after {f : IdFactory} {t : Term} {id : Identifier} (h : f.id t = .ok id)
    (generation : Nat) (cache : Option (Nat × Nat)) (es : List Encoded) :
    ∃ d, ((Deriver.start f generation cache).after es).id t = .ok (id, d) := by
  obtain ⟨e, he, rfl⟩ := ok_of_map h
  have hcoherent := Deriver.coherent_start f generation cache
  obtain ⟨_, hfactory⟩ := Deriver.after_spec hcoherent es
  refine ⟨(((Deriver.start f generation cache).after es).derive e).2, ?_⟩
  rw [Deriver.id, hfactory]
  show (f.codec.encode t).map _ = _
  rw [he]
  exact congrArg Except.ok (Prod.ext (Deriver.derive_after hcoherent es e) rfl)

/-- An encoded term has one identifier, with a cache as without.  It tells the kind of the term,
whether the term is a string, and whether it is a number with the label that its value is written
as.  So terms that differ in kind or in being strings have different identifiers. -/
theorem trueOf_id (f : IdFactory) :
    (∀ t e, f.codec.encode t = .ok e → ∃ id, f.id t = .ok id ∧ (f.roles id).TrueOf t
      ∧ ∀ generation cache es, ∃ d,
        ((Deriver.start f generation cache).after es).id t = .ok (id, d))
      ∧ (∀ l : Literal, l.IsWrittenNumber → l.isNumeric = true ∧ l.language? = none)
      ∧ ∀ t t' id, f.id t = .ok id → f.id t' = .ok id →
        t.kind = t'.kind ∧ (t.IsString ↔ t'.IsString) := by
  refine ⟨fun t e he => ?_, fun l hl => hl.isNumeric, fun t t' id h h' => ?_⟩
  · have hid : f.id t = .ok (f.derive e) := congrArg (Except.map f.derive) he
    exact ⟨f.derive e, hid, trueOf_of_id hid, id_after hid⟩
  · have htrue := trueOf_of_id h
    have htrue' := trueOf_of_id h'
    exact ⟨htrue.kind.symm.trans htrue'.kind, htrue.string.symm.trans htrue'.string⟩

/-- Identifiers of one byte, all of which is the descriptor. -/
def single : IdFactory := ⟨⟨.xxh3, 1, false, Nat.one_pos, by decide⟩, .bare⟩

/-- Two numbers with one identifier. -/
theorem trueOf_id_single :
    (single.roles ⟨[5]⟩).TrueOf (.literal (.typed "-7" Xsd.short))
      ∧ (∃ d, ((Deriver.start single 0 (some (2, 8))).after [⟨.blank, []⟩]).id
          (.literal (.typed "-7" Xsd.short)) = .ok (⟨[5]⟩, d))
      ∧ (Literal.typed "-7" Xsd.short).isNumeric = true
      ∧ ((Term.literal (.typed "-7" Xsd.short)).IsString
        ↔ (Term.literal (.typed "0.5" Xsd.decimal)).IsString) := by
  have hencode : single.codec.encode (.literal (.typed "-7" Xsd.short))
      = .ok ⟨.literal .short, [0xFF, 0xF9]⟩ := ok_of_toOption (by decide +kernel)
  have hid : single.id (.literal (.typed "-7" Xsd.short)) = .ok ⟨[5]⟩ :=
    ok_of_toOption (by decide +kernel)
  have hid' : single.id (.literal (.typed "0.5" Xsd.decimal)) = .ok ⟨[5]⟩ :=
    ok_of_toOption (by decide +kernel)
  have hwritten : (Literal.typed "-7" Xsd.short).IsWrittenNumber :=
    ⟨.short, rfl, -7, by decide, by decide, by decide +kernel⟩
  obtain ⟨hencoded, hnumeric, hshared⟩ := trueOf_id single
  obtain ⟨id, hsame, htrue, hcached⟩ := hencoded _ _ hencode
  obtain rfl : ⟨[5]⟩ = id := Except.ok.inj (hid.symm.trans hsame)
  exact ⟨htrue, hcached 0 _ _, (hnumeric _ hwritten).1, (hshared _ _ _ hid hid').2⟩

end IdFactory

end RdfIndex
