import Mathlib.Data.Nat.Notation
import PixelFont.Text.Utf8

/-!
Reading and writing UTF-8 are inverse to each other. The four forms of a character are told apart by
their first byte, whose bounds, with those of the second one, leave room for exactly the codes of
characters. Main statement: `decode_eq_ok_iff`.
-/

set_option autoImplicit false

namespace PixelFont.Text.Utf8

/-! ### Bytes -/

theorem isContinuation_iff {byte : UInt8} :
    isContinuation byte = true ↔ 0x80 ≤ byte.toNat ∧ byte.toNat ≤ 0xBF := by
  simp [isContinuation, UInt8.le_iff_toNat_le]

/-- The second byte of three or four leaves out what a shorter form says, the halves of a pair and
the codes beyond the last. -/
theorem isSecond_iff {lead byte : UInt8} :
    isSecond lead byte = true ↔ (0x80 ≤ byte.toNat ∧ byte.toNat ≤ 0xBF) ∧
      (lead.toNat = 0xE0 → 0xA0 ≤ byte.toNat) ∧ (lead.toNat = 0xED → byte.toNat < 0xA0) ∧
      (lead.toNat = 0xF0 → 0x90 ≤ byte.toNat) ∧ (lead.toNat = 0xF4 → byte.toNat < 0x90) := by
  simp only [isSecond, Bool.and_eq_true, isContinuation_iff, Bool.not_eq_true',
    Bool.and_eq_false_iff, beq_eq_false_iff_ne, decide_eq_false_iff_not, UInt8.lt_iff_toNat_lt,
    UInt8.le_iff_toNat_le, ne_eq, ← UInt8.toNat_inj, UInt8.reduceToNat]
  omega

theorem toNat_toUInt8 (number : ℕ) (hnumber : number < 256) : number.toUInt8.toNat = number := by
  simpa using hnumber

theorem toUInt8_eq_iff {number : ℕ} {byte : UInt8} (hnumber : number < 256) :
    number.toUInt8 = byte ↔ number = byte.toNat := by
  rw [← UInt8.toNat_inj, toNat_toUInt8 number hnumber]

/-! ### Characters -/

/-- The bytes that stand for a character, of one of four forms. Their first byte tells the form. -/
inductive Encodes (c : Char) : List UInt8 → Prop where
  | single {lead : UInt8} (hlead : lead.toNat < 0x80) (hcode : lead.toNat = c.toNat) :
    Encodes c [lead]
  | pair {lead second : UInt8} (hlead : 0xC2 ≤ lead.toNat ∧ lead.toNat < 0xE0)
    (hsecond : isContinuation second = true)
    (hcode : payload lead 32 * 64 + payload second 64 = c.toNat) : Encodes c [lead, second]
  | triple {lead second third : UInt8}
    (hlead : 0xE0 ≤ lead.toNat ∧ lead.toNat < 0xF0) (hsecond : isSecond lead second = true)
    (hthird : isContinuation third = true)
    (hcode : payload lead 16 * 4096 + payload second 64 * 64 + payload third 64 = c.toNat) :
    Encodes c [lead, second, third]
  | quadruple {lead second third fourth : UInt8}
    (hlead : 0xF0 ≤ lead.toNat ∧ lead.toNat < 0xF5) (hsecond : isSecond lead second = true)
    (hthird : isContinuation third = true) (hfourth : isContinuation fourth = true)
    (hcode : payload lead 8 * 262144 + payload second 64 * 4096 + payload third 64 * 64 +
      payload fourth 64 = c.toNat) : Encodes c [lead, second, third, fourth]

variable {c : Char} {bytes : List UInt8}

/-- The bytes that stand for a character are those that are written for it. -/
theorem Encodes.encodeChar_eq (hbytes : Encodes c bytes) : encodeChar c = bytes := by
  rw [encodeChar]
  cases hbytes with
  | single hlead hcode =>
    rw [← hcode, if_pos hlead, (toUInt8_eq_iff (by omega)).mpr rfl]
  | @pair lead second hlead hsecond hcode =>
    rw [isContinuation_iff] at hsecond
    simp only [payload] at hcode
    have hfirst : (0xC0 + c.toNat / 64).toUInt8 = lead :=
      (toUInt8_eq_iff (by omega)).mpr (by omega)
    have hlast : (0x80 + c.toNat % 64).toUInt8 = second :=
      (toUInt8_eq_iff (by omega)).mpr (by omega)
    rw [if_neg (by omega), if_pos (by omega), hfirst, hlast]
  | @triple lead second third hlead hsecond hthird hcode =>
    rw [isSecond_iff] at hsecond
    rw [isContinuation_iff] at hthird
    simp only [payload] at hcode
    have hfirst : (0xE0 + c.toNat / 4096).toUInt8 = lead :=
      (toUInt8_eq_iff (by omega)).mpr (by omega)
    have hmiddle : (0x80 + c.toNat / 64 % 64).toUInt8 = second :=
      (toUInt8_eq_iff (by omega)).mpr (by omega)
    have hlast : (0x80 + c.toNat % 64).toUInt8 = third := (toUInt8_eq_iff (by omega)).mpr (by omega)
    rw [if_neg (by omega), if_neg (by omega), if_pos (by omega), hfirst, hmiddle, hlast]
  | @quadruple lead second third fourth hlead hsecond hthird hfourth hcode =>
    rw [isSecond_iff] at hsecond
    rw [isContinuation_iff] at hthird hfourth
    simp only [payload] at hcode
    have hfirst : (0xF0 + c.toNat / 262144).toUInt8 = lead :=
      (toUInt8_eq_iff (by omega)).mpr (by omega)
    have hnext : (0x80 + c.toNat / 4096 % 64).toUInt8 = second :=
      (toUInt8_eq_iff (by omega)).mpr (by omega)
    have hmiddle : (0x80 + c.toNat / 64 % 64).toUInt8 = third :=
      (toUInt8_eq_iff (by omega)).mpr (by omega)
    have hlast : (0x80 + c.toNat % 64).toUInt8 = fourth :=
      (toUInt8_eq_iff (by omega)).mpr (by omega)
    rw [if_neg (by omega), if_neg (by omega), if_neg (by omega), hfirst, hnext, hmiddle, hlast]

/-- The bytes that are written for a character stand for it. -/
theorem encodes_encodeChar (c : Char) : Encodes c (encodeChar c) := by
  have hvalid : c.toNat < 0xD800 ∨ 0xDFFF < c.toNat ∧ c.toNat < 0x110000 := c.valid
  rw [encodeChar]
  split
  · rename_i hsmall
    have hlead := toNat_toUInt8 c.toNat (by omega)
    exact .single (hlead.symm ▸ hsmall) hlead
  have hlast := toNat_toUInt8 (0x80 + c.toNat % 64) (by omega)
  split
  · have hlead := toNat_toUInt8 (0xC0 + c.toNat / 64) (by omega)
    refine .pair ?_ ?_ ?_
    · omega
    · rw [isContinuation_iff]
      omega
    · simp only [payload]
      omega
  have hmiddle := toNat_toUInt8 (0x80 + c.toNat / 64 % 64) (by omega)
  split
  · have hlead := toNat_toUInt8 (0xE0 + c.toNat / 4096) (by omega)
    refine .triple ?_ ?_ ?_ ?_
    · omega
    · rw [isSecond_iff]
      omega
    · rw [isContinuation_iff]
      omega
    · simp only [payload]
      omega
  · have hlead := toNat_toUInt8 (0xF0 + c.toNat / 262144) (by omega)
    have hnext := toNat_toUInt8 (0x80 + c.toNat / 4096 % 64) (by omega)
    refine .quadruple ?_ ?_ ?_ ?_ ?_
    · omega
    · rw [isSecond_iff]
      omega
    · rw [isContinuation_iff]
      omega
    · rw [isContinuation_iff]
      omega
    · simp only [payload]
      omega

/-- Bytes that stand for a character in front of others are read as the character in front of what
is read of the others. -/
theorem Encodes.decode_append (hbytes : Encodes c bytes) (rest : List UInt8) :
    decode (bytes ++ rest) = (c :: ·) <$> decode rest := by
  cases hbytes with
  | @single lead hlead hcode =>
    have hfirst : lead < 0x80 := UInt8.lt_iff_toNat_lt.mpr hlead
    rw [List.singleton_append, decode.eq_def]
    dsimp only
    rw [if_pos hfirst, hcode, Char.ofNat_toNat]
  | @pair lead second hlead hsecond hcode =>
    have hfirst : ¬ lead < 0x80 ∧ ¬ lead < 0xC2 ∧ lead < 0xE0 := by
      simp only [UInt8.lt_iff_toNat_lt, UInt8.reduceToNat]
      omega
    rw [List.cons_append, List.singleton_append, decode.eq_def]
    dsimp only
    rw [if_neg hfirst.1, if_neg hfirst.2.1, if_pos hfirst.2.2, if_pos hsecond, hcode,
      Char.ofNat_toNat]
  | @triple lead second third hlead hsecond hthird hcode =>
    have hfirst : ¬ lead < 0x80 ∧ ¬ lead < 0xC2 ∧ ¬ lead < 0xE0 ∧ lead < 0xF0 := by
      simp only [UInt8.lt_iff_toNat_lt, UInt8.reduceToNat]
      omega
    have hothers : (isSecond lead second && isContinuation third) = true := by
      rw [hsecond, hthird]
      rfl
    rw [List.cons_append, List.cons_append, List.singleton_append, decode.eq_def]
    dsimp only
    rw [if_neg hfirst.1, if_neg hfirst.2.1, if_neg hfirst.2.2.1, if_pos hfirst.2.2.2,
      if_pos hothers, hcode, Char.ofNat_toNat]
  | @quadruple lead second third fourth hlead hsecond hthird hfourth hcode =>
    have hfirst : ¬ lead < 0x80 ∧ ¬ lead < 0xC2 ∧ ¬ lead < 0xE0 ∧ ¬ lead < 0xF0 ∧
        lead < 0xF5 := by
      simp only [UInt8.lt_iff_toNat_lt, UInt8.reduceToNat]
      omega
    have hothers : (isSecond lead second && isContinuation third && isContinuation fourth) =
        true := by
      rw [hsecond, hthird, hfourth]
      rfl
    rw [List.cons_append, List.cons_append, List.cons_append, List.singleton_append,
      decode.eq_def]
    dsimp only
    rw [if_neg hfirst.1, if_neg hfirst.2.1, if_neg hfirst.2.2.1, if_neg hfirst.2.2.2.1,
      if_pos hfirst.2.2.2.2, if_pos hothers, hcode, Char.ofNat_toNat]

theorem toNat_ofNat (code : ℕ) (hcode : code.isValidChar) : (Char.ofNat code).toNat = code := by
  rw [Char.ofNat, dif_pos hcode]
  rfl

/-! ### Texts -/

theorem encode_cons (c : Char) (text : List Char) :
    encode (c :: text) = encodeChar c ++ encode text :=
  List.flatMap_cons

/-- The bytes of a text are read as the text. -/
theorem decode_encode (text : List Char) : decode (encode text) = .ok text := by
  induction text with
  | nil => rfl
  | cons c text ih =>
    rw [encode_cons, (encodes_encodeChar c).decode_append, ih]
    rfl

/-- Where a character is read in front of bytes, its bytes stand there if those behind them are the
bytes of what is read of them. -/
theorem Encodes.encode_of_map_decode (hbytes : Encodes c bytes) {rest : List UInt8}
    {text : List Char} (hrest : ∀ {tail : List Char}, decode rest = .ok tail → encode tail = rest)
    (hdecode : (c :: ·) <$> decode rest = .ok text) : encode text = bytes ++ rest := by
  cases htail : decode rest with
  | error fault =>
    rw [htail] at hdecode
    exact absurd hdecode nofun
  | ok tail =>
    rw [htail] at hdecode
    rw [← Except.ok.inj hdecode, encode_cons, hrest htail, hbytes.encodeChar_eq]

/-- Bytes that are read are those of the text that was read. -/
theorem encode_of_decode {text : List Char} (hdecode : decode bytes = .ok text) :
    encode text = bytes := by
  fun_induction decode bytes generalizing text with
  | case1 =>
    rw [← Except.ok.inj hdecode]
    rfl
  | case2 lead rest hlead ih =>
    have hbound : lead.toNat < 0x80 := UInt8.lt_iff_toNat_lt.mp hlead
    have hcode := toNat_ofNat lead.toNat (Or.inl (by omega))
    exact (Encodes.single hbound hcode.symm).encode_of_map_decode ih hdecode
  | case5 lead _ hfirst hlast second rest hsecond ih =>
    have hbounds : 0xC2 ≤ lead.toNat ∧ lead.toNat < 0xE0 :=
      ⟨UInt8.le_iff_toNat_le.mp (UInt8.not_lt.mp hfirst), UInt8.lt_iff_toNat_lt.mp hlast⟩
    have hcode := toNat_ofNat (payload lead 32 * 64 + payload second 64) (by
      unfold Nat.isValidChar payload
      omega)
    exact (Encodes.pair hbounds hsecond hcode.symm).encode_of_map_decode ih hdecode
  | case10 lead _ _ hfirst hlast second third rest hbytes ih =>
    have hbounds : 0xE0 ≤ lead.toNat ∧ lead.toNat < 0xF0 :=
      ⟨UInt8.le_iff_toNat_le.mp (UInt8.not_lt.mp hfirst), UInt8.lt_iff_toNat_lt.mp hlast⟩
    obtain ⟨hsecond, hthird⟩ := Bool.and_eq_true_iff.mp hbytes
    have hcode := toNat_ofNat
      (payload lead 16 * 4096 + payload second 64 * 64 + payload third 64) (by
        rw [isSecond_iff] at hsecond
        unfold Nat.isValidChar payload
        omega)
    exact (Encodes.triple hbounds hsecond hthird hcode.symm).encode_of_map_decode ih hdecode
  | case17 lead _ _ _ hfirst hlast second third fourth rest hbytes ih =>
    have hbounds : 0xF0 ≤ lead.toNat ∧ lead.toNat < 0xF5 :=
      ⟨UInt8.le_iff_toNat_le.mp (UInt8.not_lt.mp hfirst), UInt8.lt_iff_toNat_lt.mp hlast⟩
    obtain ⟨hothers, hfourth⟩ := Bool.and_eq_true_iff.mp hbytes
    obtain ⟨hsecond, hthird⟩ := Bool.and_eq_true_iff.mp hothers
    have hcode := toNat_ofNat (payload lead 8 * 262144 + payload second 64 * 4096 +
      payload third 64 * 64 + payload fourth 64) (by
        rw [isSecond_iff] at hsecond
        unfold Nat.isValidChar payload
        omega)
    exact (Encodes.quadruple hbounds hsecond hthird hfourth hcode.symm).encode_of_map_decode ih
      hdecode
  | _ => exact absurd hdecode nofun

/-- Bytes are read as a text exactly if they are those of the text. -/
theorem decode_eq_ok_iff {text : List Char} : decode bytes = .ok text ↔ bytes = encode text := by
  constructor
  · intro hdecode
    exact (encode_of_decode hdecode).symm
  · rintro rfl
    exact decode_encode text

/-- Bytes are refused exactly if they are those of no text. -/
theorem exists_decode_eq_error_iff :
    (∃ fault, decode bytes = .error fault) ↔ ∀ text, bytes ≠ encode text := by
  cases hdecode : decode bytes with
  | error fault =>
    refine iff_of_true ⟨fault, rfl⟩ fun text hbytes ↦ ?_
    rw [decode_eq_ok_iff.mpr hbytes] at hdecode
    exact absurd hdecode nofun
  | ok text =>
    refine iff_of_false ?_ fun hne ↦ hne text (decode_eq_ok_iff.mp hdecode)
    rintro ⟨fault, hfault⟩
    exact absurd hfault nofun

end PixelFont.Text.Utf8
