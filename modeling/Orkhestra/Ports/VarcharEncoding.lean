import Orkhestra.Ports.TypesConverter
import Orkhestra.Verified.ByteWords

/-!
# The two encoders of a text

A text is encoded to words by `TypesConverter` when it is in a table and by
`RapidJSONReader` when it is in a plan.  The first one leaves out surrounding
quotes.  It looks at the first character of an empty text, and of a lone quote
it takes away two characters: these two texts it does not encode.  On all others
the encoders agree, unless the column is so wide that the number of its
characters is not an `int`.
-/

namespace Orkhestra.Ports.VarcharEncoding

open Orkhestra.Verified.Checked
open Orkhestra.Verified.ByteWords
open Orkhestra.Ports.TypesConverter

/-! ## The encoder of the plans -/

namespace RapidJSONReader

/-- The loop of `RapidJSONReader::ConvertCharStringToAscii`. -/
def packCharacters (inputString : List Char) (outputSize : Nat) :
    Outcome (List Int) :=
  (List.range inputString.length).foldlM (fun integerValues i => do
    let value ← readAt integerValues (i / 4)
    let character ← readAt inputString i
    writeAt integerValues (i / 4)
      (value + character.toNat * 2 ^ ((3 - i % 4) * 8)))
    (List.replicate outputSize 0)

def convertCharStringToAscii (inputString : List Char) (outputSize : Int) :
    Outcome (List Int) := do
  let maxLength ← multiply outputSize 4
  if (inputString.length : Int) > maxLength % 2 ^ 64 then
    .error (.runtimeError (String.ofList inputString ++ " is longer than " ++
      toString maxLength))
  else if outputSize < 0 then
    .error (.logicError "cannot create std::vector larger than max_size()")
  else packCharacters inputString outputSize.toNat

end RapidJSONReader

/-! ## The loops -/

/-- The words of a text. -/
def textWords (outputSize : Nat) (text : List Char) : List Int :=
  (packed outputSize (text.map Char.toNat)).map Int.ofNat

theorem textWords_nil (outputSize : Nat) :
    textWords outputSize [] = List.replicate outputSize 0 := by
  rw [textWords, List.map_nil, packed_nil, List.map_replicate]
  rfl

/-- An iteration of either loop: the character that is read is added to its
word. -/
def packCharacter (read : Nat → Outcome Char) (integerValues : List Int)
    (i : Nat) : Outcome (List Int) := do
  let value ← readAt integerValues (i / 4)
  let character ← read i
  writeAt integerValues (i / 4)
    (value + character.toNat * 2 ^ ((3 - i % 4) * 8))

theorem packCharacter_textWords {read : Nat → Outcome Char} {text : List Char}
    {i outputSize : Nat} {character : Char} (hread : read i = .ok character)
    (hcharacter : text[i]? = some character) (hi : i / 4 < outputSize) :
    packCharacter read (textWords outputSize (text.take i)) i =
      .ok (textWords outputSize (text.take (i + 1))) := by
  have hbyte : byteAt (text.map Char.toNat) i = character.toNat := by
    rw [byteAt, List.getElem?_map, hcharacter]
    rfl
  have hvalue : readAt (textWords outputSize (text.take i)) (i / 4) =
      .ok (wordAt ((text.map Char.toNat).take i) (i / 4) : Int) := by
    rw [readAt_eq_ok, textWords, List.map_take, List.getElem?_map,
      getElem?_packed hi]
    rfl
  have hword : i / 4 < (textWords outputSize (text.take i)).length := by
    rwa [textWords, List.length_map, length_packed]
  rw [packCharacter, hvalue, ok_bind, hread, ok_bind, writeAt, if_pos hword,
    textWords, textWords, List.map_take, List.map_take, packed_take_succ hi,
    List.map_set, hbyte]
  congr 2

/-- The loops compute the words of the text that they read. -/
theorem foldlM_packCharacter {read : Nat → Outcome Char} {text : List Char}
    {outputSize : Nat}
    (hread : ∀ i (hi : i < text.length), read i = .ok text[i])
    (hfits : text.length ≤ outputSize * 4) :
    (List.range text.length).foldlM (packCharacter read)
        (List.replicate outputSize 0) =
      .ok (textWords outputSize text) := by
  obtain ⟨values, hrun, hvalues⟩ := forRange_total
    (fun i values => values = textWords outputSize (text.take i)) text.length
    (textWords_nil outputSize).symm
    (by
      rintro i _ hi rfl
      exact ⟨_, packCharacter_textWords (hread i hi)
        (List.getElem?_eq_getElem hi) (by omega), rfl⟩)
  rw [hrun, hvalues, List.take_length]

/-! ## The encoders -/

theorem RapidJSONReader.convertCharStringToAscii_eq {text : List Char}
    {outputSize : Nat} (hsize : outputSize < 2 ^ 29)
    (hfits : text.length ≤ outputSize * 4) :
    RapidJSONReader.convertCharStringToAscii text outputSize =
      .ok (textWords outputSize text) := by
  have hbound : ((outputSize : Int) * 4) % 2 ^ 64 = outputSize * 4 := by omega
  rw [RapidJSONReader.convertCharStringToAscii,
    multiply_of_lt (by omega) (by omega), ok_bind, hbound, if_neg (by omega),
    if_neg (by omega)]
  exact foldlM_packCharacter (fun i hi => readAt_eq_ok.mpr
    (List.getElem?_eq_getElem hi)) hfits

/-- Without quotes: `lengthReduction` is the number of characters that are left
out and `startShift` how many of them are in front. -/
theorem convertCharacters_eq {inputString text : List Char}
    {outputSize startShift lengthReduction : Nat}
    (hsize : outputSize < 2 ^ 29) (hinput : inputString.length < 2 ^ 64)
    (hlength : inputString.length = text.length + lengthReduction)
    (htext : ∀ i < text.length, inputString[i + startShift]? = text[i]?) :
    (text.length ≤ outputSize * 4 →
      convertCharacters inputString outputSize startShift lengthReduction =
        .ok (textWords outputSize text)) ∧
    (outputSize * 4 < text.length → ∃ what,
      convertCharacters inputString outputSize startShift lengthReduction =
        .error (.runtimeError what)) := by
  have hbound : ((outputSize : Int) * 4) % 2 ^ 64 = outputSize * 4 := by omega
  have hleft : ((inputString.length : Int) - lengthReduction) % 2 ^ 64 =
      text.length := by omega
  simp only [convertCharacters, hleft, ok_bind, hbound,
    multiply_of_lt (x := (outputSize : Int)) (y := 4) (by omega) (by omega)]
  constructor
  · intro hfits
    rw [if_neg (by omega), if_neg (by omega)]
    refine foldlM_packCharacter (fun i hi => checkedAt_eq_ok.mpr ?_) hfits
    rw [htext i hi, List.getElem?_eq_getElem hi]
  · intro hlong
    rw [if_pos (by omega)]
    exact ⟨_, rfl⟩

/-- The number of characters that fit is not an `int`. -/
theorem convertCharacters_of_le (inputString : List Char)
    {outputSize startShift : Nat} (lengthReduction : Int)
    (hsize : 2 ^ 29 ≤ outputSize) :
    convertCharacters inputString outputSize startShift lengthReduction =
      .error .undefined := by
  rw [convertCharacters, multiply_of_le (by omega), error_bind]

/-! ## Quoted texts -/

/-- Surrounded by two quotes. -/
def Quoted (text : List Char) : Prop :=
  2 ≤ text.length ∧ text.head? = some '"' ∧ text.getLast? = some '"'

instance (text : List Char) : Decidable (Quoted text) := by
  unfold Quoted
  infer_instance

def content (text : List Char) : List Char :=
  if Quoted text then text.tail.dropLast else text

theorem length_content_le (text : List Char) :
    (content text).length ≤ text.length := by
  unfold content
  split
  · rw [List.length_dropLast, List.length_tail]
    omega
  · exact Nat.le_refl _

/-- All texts but the empty one and the lone quote are cut to their content. -/
theorem convertCharStringToAscii_cut {text : List Char} {outputSize : Int}
    (hempty : text ≠ []) (hquote : text ≠ ['"']) :
    ∃ startShift lengthReduction : Nat,
      convertCharStringToAscii text outputSize =
        convertCharacters text outputSize startShift lengthReduction ∧
      text.length = (content text).length + lengthReduction ∧
      ∀ i < (content text).length,
        text[i + startShift]? = (content text)[i]? := by
  obtain ⟨first, rest, rfl⟩ := List.exists_cons_of_ne_nil hempty
  have hfirst : checkedAt (first :: rest) 0 = .ok first := rfl
  rw [convertCharStringToAscii, hfirst, ok_bind]
  by_cases hends : first = '"' ∧ (first :: rest).getLast? = some '"'
  · have hrest : rest ≠ [] := by
      rintro rfl
      exact hquote (by rw [hends.1])
    have hpos : 0 < rest.length := List.length_pos_of_ne_nil hrest
    have hcontent : content (first :: rest) = rest.dropLast := by
      have hquoted : Quoted (first :: rest) :=
        ⟨by rw [List.length_cons]; omega, by rw [List.head?_cons, hends.1],
          hends.2⟩
      rw [content, if_pos hquoted, List.tail_cons]
    rw [if_pos hends, hcontent]
    refine ⟨1, 2, rfl, ?_, fun i hi => ?_⟩
    · rw [List.length_cons, List.length_dropLast]
      omega
    · rw [List.length_dropLast] at hi
      rw [List.getElem?_cons_succ, List.getElem?_dropLast, if_pos hi]
  · have hcontent : content (first :: rest) = first :: rest := by
      have hquoted : ¬Quoted (first :: rest) := by
        rintro ⟨-, hhead, hlast⟩
        exact hends ⟨Option.some.inj hhead, hlast⟩
      rw [content, if_neg hquoted]
    rw [if_neg hends, hcontent]
    exact ⟨0, 0, rfl, rfl, fun i _ => rfl⟩

/-! ## Agreement -/

/-- An exception; what is undefined is none. -/
def Throws {α : Type} (run : Outcome α) : Prop :=
  ∃ fault, run = .error fault ∧ fault ≠ .undefined

/-- The content is encoded to as many words as there are, the same ones as in a
plan, unless it is too long. -/
def EncodersAgree (text : List Char) (outputSize : Nat) : Prop :=
  (Throws (convertCharStringToAscii text outputSize) ↔
    outputSize * 4 < (content text).length) ∧
  ((content text).length ≤ outputSize * 4 → ∃ words,
    convertCharStringToAscii text outputSize = .ok words ∧
    words.length = outputSize ∧
    RapidJSONReader.convertCharStringToAscii (content text) outputSize =
      .ok words)

/-- The first character of an empty text is out of range, and the length of a
lone quote wraps around. -/
theorem throws_of_short {text : List Char} {outputSize : Nat}
    (hsize : outputSize < 2 ^ 29) (h : text = [] ∨ text = ['"']) :
    Throws (convertCharStringToAscii text outputSize) := by
  rcases h with rfl | rfl
  · exact ⟨.outOfRange, rfl, by decide⟩
  · have hbound : ((outputSize : Int) * 4) % 2 ^ 64 = outputSize * 4 := by omega
    have hfirst : checkedAt ['"'] 0 = .ok '"' := rfl
    rw [convertCharStringToAscii, hfirst, ok_bind, if_pos (by decide),
      convertCharacters, multiply_of_lt (by omega) (by omega), ok_bind, hbound]
    refine ⟨_, if_pos ?_, ?_⟩
    · rw [List.length_singleton]
      omega
    · intro h
      cases h

/-- In a column that is too wide nothing but the first character is looked at. -/
theorem convertCharStringToAscii_of_le {text : List Char} {outputSize : Nat}
    (hempty : text ≠ []) (hsize : 2 ^ 29 ≤ outputSize) :
    convertCharStringToAscii text outputSize = .error .undefined := by
  obtain ⟨first, rest, rfl⟩ := List.exists_cons_of_ne_nil hempty
  have hfirst : checkedAt (first :: rest) 0 = .ok first := rfl
  rw [convertCharStringToAscii, hfirst, ok_bind]
  split
  · exact convertCharacters_of_le _ _ hsize
  · exact convertCharacters_of_le _ _ hsize

theorem EncodersAgree.lt {text : List Char} {outputSize : Nat}
    (h : EncodersAgree text outputSize) : outputSize < 2 ^ 29 := by
  by_contra hsize
  rw [Nat.not_lt] at hsize
  obtain ⟨hthrows, hfits⟩ := h
  by_cases hempty : text = []
  · subst hempty
    have hlong := hthrows.mp ⟨.outOfRange, rfl, by decide⟩
    have hle := length_content_le []
    rw [List.length_nil] at hle
    omega
  · have hundefined := convertCharStringToAscii_of_le hempty hsize
    rw [hundefined] at hthrows hfits
    have hshort : (content text).length ≤ outputSize * 4 := by
      rw [← Nat.not_lt, ← hthrows]
      rintro ⟨fault, hfault, hne⟩
      exact hne (Except.error.inj hfault).symm
    obtain ⟨words, hwords, -⟩ := hfits hshort
    cases hwords

/-- The encoders agree except on the empty text and on a lone quote, as long as
the number of characters that fit is an `int`. -/
theorem encodersAgree_iff {text : List Char} {outputSize : Nat}
    (hpos : 1 ≤ outputSize) (hinput : text.length < 2 ^ 64) :
    EncodersAgree text outputSize ↔
      outputSize < 2 ^ 29 ∧ text ≠ [] ∧ text ≠ ['"'] := by
  constructor
  · intro h
    have hsize := h.lt
    obtain ⟨hthrows, -⟩ := h
    refine ⟨hsize, not_or.mp fun hshort => ?_⟩
    have hlong := hthrows.mp (throws_of_short hsize hshort)
    have hle := length_content_le text
    rcases hshort with rfl | rfl
    · simp only [List.length_nil] at hle
      omega
    · simp only [List.length_singleton] at hle
      omega
  · rintro ⟨hsize, hempty, hquote⟩
    obtain ⟨startShift, lengthReduction, hrun, hlength, htext⟩ :=
      convertCharStringToAscii_cut hempty hquote
    obtain ⟨hfits, hlong⟩ := convertCharacters_eq hsize hinput hlength htext
    rw [← hrun] at hfits hlong
    refine ⟨⟨?_, ?_⟩, ?_⟩
    · rintro ⟨fault, hfault, -⟩
      by_contra hle
      rw [hfits (Nat.not_lt.mp hle)] at hfault
      cases hfault
    · intro hlt
      obtain ⟨what, hwhat⟩ := hlong hlt
      refine ⟨_, hwhat, ?_⟩
      intro h
      cases h
    · intro hle
      refine ⟨textWords outputSize (content text), hfits hle, ?_,
        RapidJSONReader.convertCharStringToAscii_eq hsize hle⟩
      rw [textWords, List.length_map, length_packed]

/-- A quoted text. -/
theorem encodersAgree_quoted : EncodersAgree "\"a,b\"".toList 1 :=
  (encodersAgree_iff (by decide) (by decide)).mpr (by decide)

/-- The empty text and the lone quote fit but are not encoded. -/
theorem encoders_do_not_agree :
    ¬EncodersAgree [] 1 ∧ ¬EncodersAgree ['"'] 1 := by
  constructor
  · rintro ⟨-, hfits⟩
    obtain ⟨words, hwords, -⟩ := hfits (by decide)
    cases hwords
  · rintro ⟨-, hfits⟩
    obtain ⟨words, hwords, -⟩ := hfits (by decide)
    cases hwords

end Orkhestra.Ports.VarcharEncoding
