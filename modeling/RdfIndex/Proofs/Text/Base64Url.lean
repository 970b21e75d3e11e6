import RdfIndex.Text.Base64Url

/-!
# Base64url read back

A symbol stands for one number below sixty-four (`value?_symbol`).  Each group of symbols holds the
bits of the bytes that it was written for and zeros after them, so that the bytes come back
(`decode_encode`).  No symbol is a slash.
-/

namespace RdfIndex.Base64Url

theorem value?_symbol : ∀ n < 64, value? (symbol n) = some n := by decide

theorem symbol_ne_slash (n : Nat) : symbol n ≠ '/' := by
  by_cases hn : n < 64
  · have hsymbols : ∀ n < 64, symbol n ≠ '/' := by decide
    exact hsymbols n hn
  · have hlast : symbol n = '_' := by
      rw [symbol, if_neg (by omega), if_neg (by omega), if_neg (by omega), if_neg (by omega)]
    rw [hlast]
    decide

theorem slash_not_mem_encodeChars (bytes : Bytes) : '/' ∉ encodeChars bytes := by
  fun_induction encodeChars bytes with
  | case1 => simp
  | case2 a => simp [(symbol_ne_slash _).symm]
  | case3 a b => simp [(symbol_ne_slash _).symm]
  | case4 a b c rest ih => simp [(symbol_ne_slash _).symm, ih]

theorem encodeChars_ne_nil {bytes : Bytes} (h : bytes ≠ []) : encodeChars bytes ≠ [] := by
  fun_cases encodeChars bytes with
  | case1 => exact absurd rfl h
  | case2 a => exact List.cons_ne_nil _ _
  | case3 a b => exact List.cons_ne_nil _ _
  | case4 a b c rest => exact List.cons_ne_nil _ _

/-- A byte whose number is that of another one is the other one. -/
theorem ofNat_eq {b : UInt8} {n : Nat} (h : n = b.toNat) : UInt8.ofNat n = b := by
  rw [h, UInt8.ofNat_toNat]

theorem decodeChars_encodeChars (bytes : Bytes) : decodeChars (encodeChars bytes) = some bytes := by
  fun_induction encodeChars bytes with
  | case1 => rfl
  | case2 a =>
    have ha := a.toNat_lt
    rw [decodeChars, value?_symbol _ (by omega), value?_symbol _ (by omega)]
    show (if a.toNat % 4 * 16 % 16 = 0 then _ else _) = _
    rw [if_pos (by omega), ofNat_eq (b := a) (by omega)]
  | case3 a b =>
    have ha := a.toNat_lt
    have hb := b.toNat_lt
    rw [decodeChars, value?_symbol _ (by omega), value?_symbol _ (by omega),
      value?_symbol _ (by omega)]
    show (if b.toNat % 16 * 4 % 4 = 0 then _ else _) = _
    rw [if_pos (by omega), ofNat_eq (b := a) (by omega), ofNat_eq (b := b) (by omega)]
  | case4 a b c rest ih =>
    have ha := a.toNat_lt
    have hb := b.toNat_lt
    have hc := c.toNat_lt
    rw [decodeChars, value?_symbol _ (by omega), value?_symbol _ (by omega),
      value?_symbol _ (by omega), value?_symbol _ (by omega), ih]
    show some _ = some _
    rw [ofNat_eq (b := a) (by omega), ofNat_eq (b := b) (by omega), ofNat_eq (b := c) (by omega)]

/-- The bytes of a text are those that it was written for. -/
theorem decode_encode (bytes : Bytes) : decode (encode bytes) = some bytes := by
  rw [decode, encode, String.toList_ofList, decodeChars_encodeChars]

end RdfIndex.Base64Url
