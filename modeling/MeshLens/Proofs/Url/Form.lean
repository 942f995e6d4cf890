import MeshLens.Proofs.Text.Split
import MeshLens.Proofs.Text.Utf8
import MeshLens.Url.Form

/-!
# Reading form-encoded pairs back

An encoded text holds nothing but characters that stand for themselves, plus signs, percent signs and
hexadecimal digits. So none of what separates names, values and pairs is in it, and a text of any
characters is read back. What is left out in reading are empty pieces, and a written pair is never empty:
it holds an equals sign.

## Key results

- `decode_encode`: a name or a value is read back
- `decodePairs_encodePairs`: pairs are read back, empty names and values included
- `hasHalf_decodePairs`: what is read holds no halves of surrogate pairs when the query holds none
- `isQueryChar_of_mem_encodePairs`: what a written query consists of
-/

namespace MeshLens.Url

open Text (hasHalf utf8Bytes)

/-! ## Bytes -/

/-- `hexDigitValue?` reads each digit that is written as its number. -/
theorem hexDigitValue?_hexDigit : ∀ n < 16, hexDigitValue? (hexDigit n) = some n := by
  decide

/-- `decodeBytes` reads an encoded byte as this byte. -/
theorem decodeBytes_encodeByte {b : Nat} (hb : b < 256) (s : Text) :
    decodeBytes (encodeByte b ++ s) = b :: decodeBytes s := by
  have hhigh := hexDigitValue?_hexDigit (b / 16) (by omega)
  have hlow := hexDigitValue?_hexDigit (b % 16) (by omega)
  have hvalue : b / 16 * 16 + b % 16 = b := by omega
  show decodeBytes ('%' :: hexDigit (b / 16) :: hexDigit (b % 16) :: s) = _
  simp only [decodeBytes, hhigh, hlow, hvalue]

/-- `decodeBytes` reads a row of encoded bytes as these bytes. -/
theorem decodeBytes_flatMap_encodeByte {bytes : List Nat} (hbytes : ∀ b ∈ bytes, b < 256) (s : Text) :
    decodeBytes (bytes.flatMap encodeByte ++ s) = bytes ++ decodeBytes s := by
  induction bytes with
  | nil => rfl
  | cons b bytes ih =>
    rw [List.forall_mem_cons] at hbytes
    rw [List.flatMap_cons, List.append_assoc, decodeBytes_encodeByte hbytes.1, ih hbytes.2,
      List.cons_append]

/-! ## Characters -/

/-- `isUnreserved` characters are none of those that `decodeBytes` gives a meaning. -/
theorem ne_of_isUnreserved {c : CodePoint} (h : isUnreserved c = true) : c ≠ '+' ∧ c ≠ '%' := by
  constructor
  · rintro rfl
    revert h
    decide
  · rintro rfl
    revert h
    decide

/-- `decodeBytes` reads a character that stands for itself as its bytes. -/
theorem decodeBytes_cons {c : CodePoint} (h : isUnreserved c = true) (s : Text) :
    decodeBytes (c :: s) = utf8Bytes c ++ decodeBytes s := by
  obtain ⟨hplus, hpercent⟩ := ne_of_isUnreserved h
  rw [decodeBytes]
  · exact hplus
  · exact fun _ _ _ h _ => hpercent h

/-- `decodeBytes` reads an encoded character as its bytes. -/
theorem decodeBytes_encodeChar (c : CodePoint) (s : Text) :
    decodeBytes (encodeChar c ++ s) = utf8Bytes c ++ decodeBytes s := by
  unfold encodeChar
  split
  · rename_i hsame
    exact decodeBytes_cons hsame s
  · split
    · rename_i hspace
      rw [hspace]
      rfl
    · exact decodeBytes_flatMap_encodeByte (Text.utf8Bytes_lt c) s

/-- `decodeBytes` reads an encoded text as the bytes of its characters. -/
theorem decodeBytes_encode (s : Text) : decodeBytes (encode s) = s.flatMap utf8Bytes := by
  induction s with
  | nil => rfl
  | cons c s ih =>
    show decodeBytes (encodeChar c ++ encode s) = _
    rw [decodeBytes_encodeChar, ih, List.flatMap_cons]

/-! ## What a query is made of -/

/-- The characters of an encoded name or value. -/
def isFormChar (c : CodePoint) : Bool :=
  isUnreserved c || c == '+' || c == '%'

/-- The characters of encoded pairs. -/
def isQueryChar (c : CodePoint) : Bool :=
  isFormChar c || c == '=' || c == '&'

/-- `isFormChar` holds of the digits that are written. -/
theorem isFormChar_hexDigit : ∀ n < 16, isFormChar (hexDigit n) = true := by
  decide

/-- `isFormChar` holds of no half of a surrogate pair, whose number is too large. -/
theorem isFormChar_half (n : Fin 0x800) : ¬isFormChar (.half n) = true := by
  have hlarge : ∀ c : Char, c.toNat < 0xD800 → ¬CodePoint.half n ≤ CodePoint.char c := by
    intro c hc hle
    have hle : 0xD800 + n.val ≤ c.toNat := hle
    omega
  simp [isFormChar, isUnreserved, Text.isLetter, Text.isAsciiDigit, hlarge]

/-- `encode` writes characters of names and values only. -/
theorem isFormChar_of_mem_encode {s : Text} : ∀ c ∈ encode s, isFormChar c = true := by
  intro c hc
  obtain ⟨d, -, hc⟩ := List.mem_flatMap.1 hc
  unfold encodeChar at hc
  split at hc
  · rename_i hsame
    rw [List.mem_singleton.1 hc, isFormChar, hsame]
    rfl
  · split at hc
    · rw [List.mem_singleton.1 hc]
      decide
    · obtain ⟨b, hb, hc⟩ := List.mem_flatMap.1 hc
      have hlt := Text.utf8Bytes_lt d b hb
      simp only [encodeByte, List.mem_cons, List.not_mem_nil, or_false] at hc
      rcases hc with rfl | rfl | rfl
      · decide
      · exact isFormChar_hexDigit (b / 16) (by omega)
      · exact isFormChar_hexDigit (b % 16) (by omega)

/-- `encode` writes no separator. -/
theorem notMem_encode {c : CodePoint} (hc : isFormChar c = false) (s : Text) : c ∉ encode s :=
  fun h => Bool.false_ne_true (hc.symm.trans (isFormChar_of_mem_encode c h))

/-- `encodePair` writes characters of queries only. -/
theorem isQueryChar_of_mem_encodePair {pair : Text × Text} :
    ∀ c ∈ encodePair pair, isQueryChar c = true := by
  intro c hc
  rcases List.mem_append.1 hc with hc | hc
  · rcases List.mem_append.1 hc with hc | hc
    · rw [isQueryChar, isFormChar_of_mem_encode c hc]
      rfl
    · rw [List.mem_singleton.1 hc]
      decide
  · rw [isQueryChar, isFormChar_of_mem_encode c hc]
    rfl

/-- `encodePairs` writes characters of queries only. -/
theorem isQueryChar_of_mem_encodePairs {pairs : List (Text × Text)} :
    ∀ c ∈ encodePairs pairs, isQueryChar c = true := by
  induction pairs with
  | nil => exact fun c hc => absurd hc List.not_mem_nil
  | cons pair pairs ih =>
    intro c hc
    cases pairs with
    | nil => exact isQueryChar_of_mem_encodePair c hc
    | cons next pairs =>
      have hjoin : encodePairs (pair :: next :: pairs) =
          encodePair pair ++ ([.char '&'] ++ encodePairs (next :: pairs)) :=
        Text.join_cons _ _ (List.cons_ne_nil _ _)
      rw [hjoin] at hc
      rcases List.mem_append.1 hc with hc | hc
      · exact isQueryChar_of_mem_encodePair c hc
      · rcases List.mem_append.1 hc with hc | hc
        · rw [List.mem_singleton.1 hc]
          decide
        · exact ih c hc

/-! ## Reading back -/

/-- `decode` reads a name or a value back, unless it holds half of a surrogate pair. -/
theorem decode_encode {s : Text} (hs : hasHalf s = false) : decode (encode s) = s := by
  have hascii : ∀ c ∈ encode s, !c.isHalf := by
    intro c hc
    cases c with
    | char c => rfl
    | half n => exact absurd (isFormChar_of_mem_encode _ hc) (isFormChar_half n)
  rw [decode_eq_decodeUtf8 hascii, decodeBytes_encode, Text.decodeUtf8_flatMap_utf8Bytes hs]

/-- `decodePair` reads a pair back that holds no half of a surrogate pair. -/
theorem decodePair_encodePair {pair : Text × Text} (hname : hasHalf pair.1 = false)
    (hvalue : hasHalf pair.2 = false) : decodePair (encodePair pair) = pair := by
  have hpair : encodePair pair = encode pair.1 ++ .char '=' :: encode pair.2 :=
    List.append_assoc _ _ _
  have hfound : Text.breakOn ['='] (encodePair pair) = some (encode pair.1, encode pair.2) :=
    hpair ▸ Text.breakOn_singleton (notMem_encode (by decide) _) _
  rw [decodePair, hfound]
  simp only [Option.getD_some, decode_encode hname, decode_encode hvalue]

/-- `splitOn` the ampersand tells the pairs apart. -/
theorem splitOn_encodePairs {pairs : List (Text × Text)} (hne : pairs ≠ []) :
    Text.splitOn ['&'] (encodePairs pairs) = pairs.map encodePair := by
  obtain ⟨pair, pairs, rfl⟩ := List.exists_cons_of_ne_nil hne
  have hfree : ∀ q ∈ (pair :: pairs).map encodePair, CodePoint.char '&' ∉ q := by
    intro q hq
    obtain ⟨p, -, rfl⟩ := List.mem_map.1 hq
    simp only [encodePair, List.mem_append, not_or]
    exact ⟨⟨notMem_encode (by decide) _, by decide⟩, notMem_encode (by decide) _⟩
  have hcut : Text.cutOn ['&'] (encodePairs (pair :: pairs)) =
      (encodePair pair, pairs.map encodePair) := by
    exact Text.cutOn_join (List.cons_ne_nil _ _) (fun q hq => Text.breakOn_eq_none (hfree q hq) [])
      fun q hq rest => Text.breakOn_singleton (hfree q hq) rest
  rw [Text.splitOn, hcut]
  rfl

/-- `decodePairs` reads pairs back that hold no half of a surrogate pair. -/
theorem decodePairs_encodePairs {pairs : List (Text × Text)}
    (hpairs : ∀ pair ∈ pairs, hasHalf pair.1 = false ∧ hasHalf pair.2 = false) :
    decodePairs (encodePairs pairs) = pairs := by
  cases pairs with
  | nil =>
    have hnone : Text.cutOn ['&'] [] = ([], []) := Text.cutOn_of_none (by decide)
    rw [decodePairs, encodePairs, List.map_nil, Text.join, Text.splitOn, hnone]
    rfl
  | cons pair pairs =>
    -- no pair is written as an empty text, which would be left out
    have hwritten : ∀ q ∈ (pair :: pairs).map encodePair, decide (q ≠ []) = true := by
      intro q hq
      obtain ⟨p, -, rfl⟩ := List.mem_map.1 hq
      simp [encodePair, Text.ofString, Text.ofList]
    rw [decodePairs, splitOn_encodePairs (List.cons_ne_nil _ _), List.filter_eq_self.2 hwritten,
      List.map_map]
    refine (List.map_congr_left fun p hp => ?_).trans (List.map_id _)
    exact decodePair_encodePair (hpairs p hp).1 (hpairs p hp).2

/-! ## Halves of surrogate pairs -/

/-- `decode` gives no half of a surrogate pair that the text does not hold. -/
theorem hasHalf_decode {s : Text} (hs : hasHalf s = false) : hasHalf (decode s) = false := by
  have hwhole : ∀ c ∈ s, !c.isHalf := by
    simpa only [hasHalf, List.any_eq_false, Bool.not_eq_true, Bool.not_eq_true'] using hs
  rw [decode_eq_decodeUtf8 hwhole]
  exact Text.hasHalf_decodeUtf8 _

/-- `decodePairs` gives no half of a surrogate pair that the query does not hold. -/
theorem hasHalf_decodePairs {query : Text} (hquery : hasHalf query = false) :
    ∀ pair ∈ decodePairs query, hasHalf pair.1 = false ∧ hasHalf pair.2 = false := by
  intro pair hpair
  obtain ⟨piece, hpiece, rfl⟩ := List.mem_map.1 hpair
  have hwhole : hasHalf piece = false :=
    Text.hasHalf_of_subset
      (Text.subset_of_mem_splitOn (List.cons_ne_nil _ _) (List.mem_filter.1 hpiece).1) hquery
  rw [decodePair]
  cases hbreak : Text.breakOn ['='] piece with
  | none => exact ⟨hasHalf_decode hwhole, hasHalf_decode rfl⟩
  | some found =>
    have hpiece : piece = found.1 ++ ((['='] : Text) ++ found.2) := Text.eq_append_of_breakOn hbreak
    refine ⟨hasHalf_decode (Text.hasHalf_of_subset ?_ hwhole),
      hasHalf_decode (Text.hasHalf_of_subset ?_ hwhole)⟩
    · rw [hpiece]
      exact List.subset_append_left _ _
    · rw [hpiece]
      exact List.subset_append_of_subset_right _ (List.subset_append_right _ _)

end MeshLens.Url
