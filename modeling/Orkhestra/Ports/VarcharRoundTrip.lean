import Orkhestra.Ports.VarcharEncoding
import Orkhestra.Ports.DataToString

/-!
# Texts through their words

The words of a text are printed in hexadecimal one after the other, and the
digits are read in pairs.  A word is printed without leading zeros: it has eight
digits when its first character is `16` or above, and seven otherwise.  In the
second case all pairs from there on are shifted by a digit.
-/

namespace Orkhestra.Ports.VarcharRoundTrip

open Orkhestra.Verified.Checked
open Orkhestra.Verified.Digits
open Orkhestra.Verified.ByteWords
open Orkhestra.Ports.TypesConverter
open Orkhestra.Ports.DataToString
open Orkhestra.Ports.VarcharEncoding
open Orkhestra.Ports.DMA (toWord toWord_of_lt)

/-! ## Hexadecimal digits of a word -/

/-- The text of a byte; zeros are left out. -/
def byteText (byte : Nat) : List Char :=
  if byte = 0 then [] else [Char.ofNat byte]

theorem stoulHex_pair {high low : Nat} (hhigh : high < 16) (hlow : low < 16) :
    stoulHex [Nat.digitChar high, Nat.digitChar low] = high * 16 + low := by
  simp [stoulHex, digitValue_digitChar hhigh, digitValue_digitChar hlow]

theorem hexByte_pair {high low : Nat} (hhigh : high < 16) (hlow : low < 16) :
    hexByte [Nat.digitChar high, Nat.digitChar low] =
      byteText (high * 16 + low) := by
  have hzero : [Nat.digitChar high, Nat.digitChar low] = ['0', '0'] ↔
      high * 16 + low = 0 := by
    rw [List.cons_eq_cons, List.singleton_inj, Nat.digitChar_eq_zero,
      Nat.digitChar_eq_zero]
    omega
  rw [hexByte, byteText, stoulHex_pair hhigh hlow]
  simp only [hzero]

/-- A byte with both of its digits is read on its own. -/
theorem convertHexStringToString_byte {byte : Nat} (hbyte : byte < 256)
    (hex : List Char) :
    convertHexStringToString (fixedDigits 16 2 byte ++ hex) =
      byteText byte ++ convertHexStringToString hex := by
  have hdigits : fixedDigits 16 2 byte =
      [Nat.digitChar (byte / 16), Nat.digitChar (byte % 16)] := by
    rw [fixedDigits, fixedDigits, fixedDigits, List.nil_append,
      Nat.mod_eq_of_lt (by omega : byte / 16 < 16)]
    rfl
  rw [hdigits, List.cons_append, List.cons_append, List.nil_append,
    convertHexStringToString, hexByte_pair (by omega) (by omega),
    Nat.mul_comm, Nat.div_add_mod]

section Word

variable {b₀ b₁ b₂ b₃ : Nat}

/-- The digits of a word behind those of its first byte. -/
theorem hexText_word (h₀ : 0 < b₀) (h₁ : b₁ < 256) (h₂ : b₂ < 256)
    (h₃ : b₃ < 256) :
    hexText (b₀ * 2 ^ 24 + b₁ * 2 ^ 16 + b₂ * 2 ^ 8 + b₃) =
      Nat.toDigits 16 b₀ ++ (fixedDigits 16 2 b₁ ++
        (fixedDigits 16 2 b₂ ++ fixedDigits 16 2 b₃)) := by
  have hlast : fixedDigits 16 2 b₂ ++ fixedDigits 16 2 b₃ =
      fixedDigits 16 4 (b₂ * 16 ^ 2 + b₃) :=
    (fixedDigits_append (by omega) 2 b₂).symm
  have hrest : fixedDigits 16 2 b₁ ++ fixedDigits 16 4 (b₂ * 16 ^ 2 + b₃) =
      fixedDigits 16 6 (b₁ * 16 ^ 4 + (b₂ * 16 ^ 2 + b₃)) :=
    (fixedDigits_append (by omega) 2 b₁).symm
  have hsum : b₀ * 2 ^ 24 + b₁ * 2 ^ 16 + b₂ * 2 ^ 8 + b₃ =
      b₀ * 16 ^ 6 + (b₁ * 16 ^ 4 + (b₂ * 16 ^ 2 + b₃)) := by omega
  have hne : b₀ * 16 ^ 6 + (b₁ * 16 ^ 4 + (b₂ * 16 ^ 2 + b₃)) ≠ 0 := by omega
  rw [hlast, hrest, toDigits_append_fixedDigits (by decide) h₀ (by omega), hsum,
    hexText, if_pos hne]

theorem toDigits_byte (h₀ : 16 ≤ b₀) (h₀' : b₀ < 256) :
    Nat.toDigits 16 b₀ = fixedDigits 16 2 b₀ := by
  rw [Nat.toDigits_of_base_le (by decide) h₀,
    Nat.toDigits_of_lt_base (by omega), fixedDigits, fixedDigits, fixedDigits,
    Nat.mod_eq_of_lt (by omega : b₀ / 16 < 16), List.nil_append]

/-- A word that starts with a printable character. -/
theorem convertHexStringToString_word (h₀ : 16 ≤ b₀) (h₀' : b₀ < 256)
    (h₁ : b₁ < 256) (h₂ : b₂ < 256) (h₃ : b₃ < 256) (hex : List Char) :
    convertHexStringToString
        (hexText (b₀ * 2 ^ 24 + b₁ * 2 ^ 16 + b₂ * 2 ^ 8 + b₃) ++ hex) =
      byteText b₀ ++ (byteText b₁ ++ (byteText b₂ ++ (byteText b₃ ++
        convertHexStringToString hex))) := by
  rw [hexText_word (by omega) h₁ h₂ h₃, toDigits_byte h₀ h₀']
  simp only [List.append_assoc]
  rw [convertHexStringToString_byte h₀', convertHexStringToString_byte h₁,
    convertHexStringToString_byte h₂, convertHexStringToString_byte h₃]

theorem length_hexText_word (h₀ : 16 ≤ b₀) (h₀' : b₀ < 256) (h₁ : b₁ < 256)
    (h₂ : b₂ < 256) (h₃ : b₃ < 256) :
    (hexText (b₀ * 2 ^ 24 + b₁ * 2 ^ 16 + b₂ * 2 ^ 8 + b₃)).length = 8 := by
  rw [hexText_word (by omega) h₁ h₂ h₃, toDigits_byte h₀ h₀']
  simp only [List.length_append, length_fixedDigits]

/-- A word that starts with a control character: its only digit is paired with
the first one of the next byte. -/
theorem head?_convertHexStringToString_word (h₀ : 0 < b₀) (h₀' : b₀ < 16)
    (h₁ : b₁ < 256) (h₂ : b₂ < 256) (h₃ : b₃ < 256) (hex : List Char) :
    (convertHexStringToString
        (hexText (b₀ * 2 ^ 24 + b₁ * 2 ^ 16 + b₂ * 2 ^ 8 + b₃) ++ hex)).head? =
      some (Char.ofNat (b₀ * 16 + b₁ / 16)) := by
  have hdigits : fixedDigits 16 2 b₁ =
      [Nat.digitChar (b₁ / 16), Nat.digitChar (b₁ % 16)] := by
    rw [fixedDigits, fixedDigits, fixedDigits, List.nil_append,
      Nat.mod_eq_of_lt (by omega : b₁ / 16 < 16)]
    rfl
  rw [hexText_word h₀ h₁ h₂ h₃, Nat.toDigits_of_lt_base h₀', hdigits]
  simp only [List.append_assoc, List.cons_append, List.nil_append]
  rw [convertHexStringToString, hexByte_pair h₀' (by omega), byteText,
    if_neg (by omega), List.singleton_append, List.head?_cons]

end Word

/-! ## Whole texts -/

/-- What the words of a text are decoded to. -/
def decodedText (outputSize : Nat) (text : List Char) : List Char :=
  convertHexStringToString
    ((packed outputSize (text.map Char.toNat)).flatMap hexText)

/-- Zeros are not printed. -/
theorem flatMap_hexText_replicate_zero (outputSize : Nat) :
    (List.replicate outputSize 0).flatMap hexText = [] := by
  rw [List.flatMap_eq_nil_iff]
  intro word hword
  rw [List.eq_of_mem_replicate hword]
  rfl

theorem decodedText_nil (outputSize : Nat) : decodedText outputSize [] = [] := by
  rw [decodedText, List.map_nil, packed_nil, flatMap_hexText_replicate_zero]
  rfl

/-- Characters of seven bits other than zero. -/
def Ascii (text : List Char) : Prop := ∀ c ∈ text, 1 ≤ c.toNat ∧ c.toNat ≤ 127

theorem byteAt_lt_of_ascii {text : List Char} (htext : Ascii text) (i : Nat) :
    byteAt (text.map Char.toNat) i < 128 := by
  refine byteAt_lt (by decide) (fun b hb => ?_) i
  obtain ⟨c, hc, rfl⟩ := List.mem_map.mp hb
  have h := (htext c hc).2
  omega

theorem byteText_toNat {c : Char} (hc : 1 ≤ c.toNat) :
    byteText c.toNat = [c] := by
  rw [byteText, if_neg (by omega), Char.ofNat_toNat]

/-- The bytes of the first word spell the first four characters. -/
theorem byteText_take_four {text : List Char} (htext : Ascii text)
    (rest : List Char) :
    byteText (byteAt (text.map Char.toNat) 0) ++
      (byteText (byteAt (text.map Char.toNat) 1) ++
        (byteText (byteAt (text.map Char.toNat) 2) ++
          (byteText (byteAt (text.map Char.toNat) 3) ++ rest))) =
      text.take 4 ++ rest := by
  have hbyte : ∀ i, byteText (byteAt (text.map Char.toNat) i) =
      text[i]?.toList := by
    intro i
    rw [byteAt, List.getElem?_map]
    cases h : text[i]? with
    | none => rfl
    | some c => exact byteText_toNat (htext c (List.mem_of_getElem? h)).1
  have htake : text.take 4 = text[0]?.toList ++ (text[1]?.toList ++
      (text[2]?.toList ++ text[3]?.toList)) := by
    rcases text with _ | ⟨c₀, _ | ⟨c₁, _ | ⟨c₂, _ | ⟨c₃, rest⟩⟩⟩⟩ <;> rfl
  simp only [hbyte, htake, List.append_assoc]

/-- The characters at the starts of the words. -/
def LeadingPrintable (text : List Char) : Prop :=
  ∀ k c, text[4 * k]? = some c → 16 ≤ c.toNat

theorem leadingPrintable_cons_iff (c : Char) (text : List Char) :
    LeadingPrintable (c :: text) ↔
      16 ≤ c.toNat ∧ LeadingPrintable ((c :: text).drop 4) := by
  constructor
  · intro h
    refine ⟨h 0 c rfl, fun k d hd => h (k + 1) d ?_⟩
    rw [List.getElem?_drop] at hd
    rwa [Nat.mul_succ, Nat.add_comm]
  · rintro ⟨hfirst, hrest⟩ k d hd
    cases k with
    | zero => rwa [← Option.some.inj hd]
    | succ k =>
        refine hrest k d ?_
        rw [List.getElem?_drop]
        rwa [Nat.mul_succ, Nat.add_comm] at hd

theorem decodedText_succ {outputSize : Nat} {c : Char} {text : List Char}
    (htext : Ascii (c :: text)) (hc : 16 ≤ c.toNat) :
    decodedText (outputSize + 1) (c :: text) =
      (c :: text).take 4 ++ decodedText outputSize ((c :: text).drop 4) := by
  have hlt := byteAt_lt_of_ascii htext
  have hfirst : byteAt ((c :: text).map Char.toNat) 0 = c.toNat := rfl
  rw [decodedText, packed_succ, List.flatMap_cons, wordAt, Nat.mul_zero,
    convertHexStringToString_word (by rwa [hfirst])
      (Nat.lt_trans (hlt 0) (by decide)) (Nat.lt_trans (hlt 1) (by decide))
      (Nat.lt_trans (hlt 2) (by decide)) (Nat.lt_trans (hlt 3) (by decide)),
    byteText_take_four htext, decodedText, List.map_drop]

theorem toNat_ofNat {n : Nat} (hn : n < 256) : (Char.ofNat n).toNat = n := by
  have hvalid : n.isValidChar := .inl (by omega)
  rw [Char.ofNat, dif_pos hvalid]
  rfl

theorem decodedText_ne {outputSize : Nat} {c : Char} {text : List Char}
    (htext : Ascii (c :: text)) (hc : c.toNat < 16) :
    decodedText (outputSize + 1) (c :: text) ≠ c :: text := by
  have hlt := byteAt_lt_of_ascii htext
  have hpos := (htext c List.mem_cons_self).1
  have hfirst : byteAt ((c :: text).map Char.toNat) 0 = c.toNat := rfl
  have hhead : (decodedText (outputSize + 1) (c :: text)).head? =
      some (Char.ofNat (c.toNat * 16 +
        byteAt ((c :: text).map Char.toNat) 1 / 16)) := by
    rw [decodedText, packed_succ, List.flatMap_cons, wordAt, Nat.mul_zero,
      head?_convertHexStringToString_word (by omega) (by omega)
        (Nat.lt_trans (hlt 1) (by decide)) (Nat.lt_trans (hlt 2) (by decide))
        (Nat.lt_trans (hlt 3) (by decide)), hfirst]
  intro heq
  rw [heq, List.head?_cons, Option.some.injEq] at hhead
  have hsmall := hlt 1
  have hvalue := congrArg Char.toNat hhead
  rw [toNat_ofNat (by omega)] at hvalue
  omega

/-- By induction on the words: the first word that starts with a control
character spoils the text. -/
theorem decodedText_eq_iff {outputSize : Nat} {text : List Char}
    (htext : Ascii text) (hfits : text.length ≤ 4 * outputSize) :
    decodedText outputSize text = text ↔ LeadingPrintable text := by
  induction outputSize generalizing text with
  | zero =>
      obtain rfl := List.length_eq_zero_iff.mp (Nat.le_zero.mp hfits)
      exact iff_of_true rfl fun k c hc => by cases hc
  | succ outputSize ih =>
      cases text with
      | nil => exact iff_of_true (decodedText_nil _) fun k c hc => by cases hc
      | cons c text =>
          rw [leadingPrintable_cons_iff]
          by_cases hc : 16 ≤ c.toNat
          · have hdrop : ((c :: text).drop 4).length ≤ 4 * outputSize := by
              rw [List.length_drop]
              omega
            have hascii : Ascii ((c :: text).drop 4) :=
              fun d hd => htext d (List.mem_of_mem_drop hd)
            rw [decodedText_succ htext hc, ← ih hascii hdrop, and_iff_right hc]
            constructor
            · intro heq
              have hsplit := heq.trans (List.take_append_drop 4 (c :: text)).symm
              exact List.append_cancel_left hsplit
            · intro heq
              rw [heq, List.take_append_drop]
          · exact iff_of_false (decodedText_ne htext (Nat.not_le.mp hc))
              fun h => hc h.1

/-- The number of digits: eight for each word that is not zero. -/
theorem length_hexText_packed {outputSize : Nat} {text : List Char}
    (htext : Ascii text) (hfits : text.length ≤ 4 * outputSize)
    (hprintable : LeadingPrintable text) :
    ((packed outputSize (text.map Char.toNat)).flatMap hexText).length =
      8 * ((text.length + 3) / 4) := by
  induction outputSize generalizing text with
  | zero =>
      obtain rfl := List.length_eq_zero_iff.mp (Nat.le_zero.mp hfits)
      rfl
  | succ outputSize ih =>
      cases text with
      | nil =>
          rw [List.map_nil, packed_nil, flatMap_hexText_replicate_zero]
          rfl
      | cons c text =>
          obtain ⟨hc, hrest⟩ := (leadingPrintable_cons_iff c text).mp hprintable
          have hlt := byteAt_lt_of_ascii htext
          have hfirst : byteAt ((c :: text).map Char.toNat) 0 = c.toNat := rfl
          have hword := length_hexText_word (hfirst ▸ hc)
            (Nat.lt_trans (hlt 0) (by decide)) (Nat.lt_trans (hlt 1) (by decide))
            (Nat.lt_trans (hlt 2) (by decide)) (Nat.lt_trans (hlt 3) (by decide))
          have hdrop : ((c :: text).drop 4).length ≤ 4 * outputSize := by
            rw [List.length_drop]
            omega
          have hleft := ih (fun d hd => htext d (List.mem_of_mem_drop hd)) hdrop
            hrest
          rw [packed_succ, List.flatMap_cons, List.length_append, wordAt,
            Nat.mul_zero, hword, ← List.map_drop, hleft, List.length_drop,
            List.length_cons]
          omega

/-! ## The round trip -/

/-- The text is what its words are decoded to.  `ConvertHexStringToString`
counts to the end of the digits in an `int`, by twos. -/
def RoundTrips (text : List Char) (outputSize : Nat) : Prop :=
  ∃ words, convertStringValuesToIntegerData text [] outputSize = .ok words ∧
    (words.flatMap hexText).length < 2 ^ 31 - 1 ∧
    convertStringValuesToString words [] = .ok [text]

theorem map_toWord_textWords {text : List Char} (htext : Ascii text)
    (outputSize : Nat) :
    (textWords outputSize text).map toWord =
      packed outputSize (text.map Char.toNat) := by
  have hbytes : ∀ b ∈ text.map Char.toNat, b < 2 ^ 8 := by
    intro b hb
    obtain ⟨c, hc, rfl⟩ := List.mem_map.mp hb
    have h := (htext c hc).2
    omega
  have hword : ∀ word ∈ packed outputSize (text.map Char.toNat),
      (toWord ∘ Int.ofNat) word = id word := by
    intro word hword
    obtain ⟨k, -, rfl⟩ := List.mem_map.mp hword
    rw [Function.comp_apply, Int.ofNat_eq_natCast,
      toWord_of_lt (wordAt_lt hbytes k), id_eq]
  rw [textWords, List.map_map, List.map_congr_left hword, List.map_id]

theorem convertStringValuesToIntegerData_eq {text : List Char}
    {outputSize : Nat} (hsize : outputSize < 2 ^ 29) (hne : text ≠ [])
    (htext : Ascii text) (hfits : text.length ≤ 4 * outputSize)
    (hquotes : ¬(text.head? = some '"' ∧ text.getLast? = some '"')) :
    convertStringValuesToIntegerData text [] outputSize =
      .ok (packed outputSize (text.map Char.toNat)) := by
  have hquote : text ≠ ['"'] := by
    rintro rfl
    exact hquotes ⟨rfl, rfl⟩
  have hcontent : content text = text := if_neg fun h => hquotes h.2
  obtain ⟨startShift, lengthReduction, hrun, hlength, hchars⟩ :=
    convertCharStringToAscii_cut hne hquote
  rw [hcontent] at hlength hchars
  rw [convertStringValuesToIntegerData, hrun,
    (convertCharacters_eq hsize (by omega) hlength hchars).1 (by omega), ok_bind,
    List.nil_append, map_toWord_textWords htext]

theorem RoundTrips.lt {text : List Char} {outputSize : Nat} (hne : text ≠ [])
    (h : RoundTrips text outputSize) : outputSize < 2 ^ 29 := by
  by_contra hsize
  obtain ⟨words, hwords, -⟩ := h
  rw [convertStringValuesToIntegerData,
    convertCharStringToAscii_of_le hne (Nat.not_lt.mp hsize)] at hwords
  cases hwords

/-- A text comes back exactly when no word starts with a control character below
`16` and neither the number of characters that fit nor that of the digits leaves
`int`. -/
theorem roundTrips_iff {text : List Char} {outputSize : Nat}
    (hne : text ≠ []) (htext : Ascii text)
    (hfits : text.length ≤ 4 * outputSize)
    (hquotes : ¬(text.head? = some '"' ∧ text.getLast? = some '"')) :
    RoundTrips text outputSize ↔
      outputSize < 2 ^ 29 ∧ text.length ≤ 2 ^ 30 - 4 ∧
        ∀ k c, text[4 * k]? = some c → 16 ≤ c.toNat := by
  have hdecode : convertStringValuesToString
      (packed outputSize (text.map Char.toNat)) [] =
      .ok [decodedText outputSize text] := rfl
  have hprintable := decodedText_eq_iff htext hfits
  constructor
  · intro h
    have hsize := h.lt hne
    obtain ⟨words, hwords, hdigits, htexts⟩ := h
    rw [convertStringValuesToIntegerData_eq hsize hne htext hfits hquotes,
      Except.ok.injEq] at hwords
    subst hwords
    rw [hdecode, Except.ok.injEq, List.singleton_inj, hprintable] at htexts
    rw [length_hexText_packed htext hfits htexts] at hdigits
    exact ⟨hsize, by omega, htexts⟩
  · rintro ⟨hsize, hlength, hleading⟩
    rw [hprintable.mpr hleading] at hdecode
    refine ⟨_, convertStringValuesToIntegerData_eq hsize hne htext hfits hquotes,
      ?_, hdecode⟩
    rw [length_hexText_packed htext hfits hleading]
    omega

/-- Two words, the second of which is not full. -/
theorem roundTrips_hello : RoundTrips "hello".toList 2 := by
  have hprintable : ∀ c ∈ "hello".toList, 16 ≤ c.toNat := by simp
  exact (roundTrips_iff (by decide) (by simp [Ascii]) (by decide)
    (by decide)).mpr ⟨by decide, by decide,
      fun _ c hc => hprintable c (List.mem_of_getElem? hc)⟩

/-- A text of four characters and a tabulator: the tabulator is printed as `9`
in front of six zeros and read as `90`. -/
theorem tabulator_does_not_round_trip : ¬RoundTrips "text\t".toList 2 := by
  rintro ⟨words, hencode, -, hdecode⟩
  obtain rfl := Except.ok.inj (hencode.symm.trans
    (show _ = Except.ok [0x74657874, 0x09000000] by decide))
  exact absurd hdecode (by decide)

end Orkhestra.Ports.VarcharRoundTrip
