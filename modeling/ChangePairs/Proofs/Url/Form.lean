import ChangePairs.Proofs.Text.Utf8
import ChangePairs.Proofs.Url.Basic
import ChangePairs.Url.Form

/-!
Queries read back.  `decode` reads a query the way it is read at the other end: ampersands part the
pairs, the first equals sign of a pair ends its name, a plus sign is a space, and a percent sign
with two hexadecimal digits is an octet.

No name or value that is written has a separator in it, whatever characters it is made of
(`isWritten_of_mem_encodeText`), and that is what the main statement, `decode_encode`, rests on.
-/

namespace ChangePairs
namespace Form

open Octets (ofChar)
open Text (fields)

/-! ## The other end -/

def hexValue? (c : Char) : Option Nat :=
  if '0' ≤ c ∧ c ≤ '9' then some (c.toNat - '0'.toNat)
  else if 'A' ≤ c ∧ c ≤ 'F' then some (c.toNat - 'A'.toNat + 10)
  else if 'a' ≤ c ∧ c ≤ 'f' then some (c.toNat - 'a'.toNat + 10)
  else none

/-- The octets of a name or a value.  A percent sign without two digits stands for itself. -/
def readOctets : Text → Octets
  | [] => []
  | '+' :: rest => 0x20 :: readOctets rest
  | '%' :: a :: b :: rest =>
    match hexValue? a, hexValue? b with
    | some high, some low => (16 * high + low) :: readOctets rest
    | _, _ => 0x25 :: readOctets (a :: b :: rest)
  | c :: rest => ofChar c ++ readOctets rest

def decodeText (t : Text) : Text := Octets.decode (readOctets t)

def decodePair (piece : Text) : Text × Text :=
  let (name, value) := Url.cut '=' piece
  (decodeText name, decodeText value)

/-- The pairs that a query holds.  Nothing between two ampersands is no pair. -/
def decode (query : Text) : List (Text × Text) :=
  ((fields '&' query).filter (!·.isEmpty)).map decodePair

/-! ## One octet -/

theorem hexValue?_hexDigit {n : Nat} (h : n < 16) : hexValue? (hexDigit n) = some n := by
  have hall : ∀ n : Fin 16, hexValue? (hexDigit n) = some n.val := by decide
  exact hall ⟨n, h⟩

theorem isPlain_hexDigit {n : Nat} (h : n < 16) : isPlain (hexDigit n) = true := by
  have hall : ∀ n : Fin 16, isPlain (hexDigit n) = true := by decide
  exact hall ⟨n, h⟩

theorem ofChar_ofNat {b : Nat} (h : b < 0x80) : ofChar (Char.ofNat b) = [b] := by
  have hall : ∀ b : Fin 0x80, ofChar (Char.ofNat b) = [b.val] := by decide
  exact hall ⟨b, h⟩

theorem readOctets_of_isPlain {c : Char} (h : isPlain c = true) (rest : Text) :
    readOctets (c :: rest) = ofChar c ++ readOctets rest := by
  rw [readOctets]
  · rintro rfl
    nomatch h
  · rintro a b rest' rfl
    nomatch h

theorem readOctets_encodeOctet {b : Nat} (h : b < 256) (rest : Text) :
    readOctets (encodeOctet b ++ rest) = b :: readOctets rest := by
  unfold encodeOctet
  by_cases hspace : b = 0x20
  · rw [if_pos hspace, hspace]
    rfl
  rw [if_neg hspace]
  by_cases hplain : (b < 0x80 && isPlain (Char.ofNat b)) = true
  · rw [if_pos hplain]
    rw [Bool.and_eq_true, decide_eq_true_iff] at hplain
    exact (readOctets_of_isPlain hplain.2 rest).trans (by rw [ofChar_ofNat hplain.1]; rfl)
  · have hvalue : 16 * (b / 16) + b % 16 = b := by omega
    rw [if_neg hplain]
    show readOctets ('%' :: hexDigit (b / 16) :: hexDigit (b % 16) :: rest) = _
    simp only [readOctets, hexValue?_hexDigit (show b / 16 < 16 by omega),
      hexValue?_hexDigit (show b % 16 < 16 by omega), hvalue]

/-! ## Names and values -/

theorem readOctets_flatMap {octets : Octets} (h : ∀ b ∈ octets, b < 256) :
    readOctets (octets.flatMap encodeOctet) = octets := by
  induction octets with
  | nil => rfl
  | cons b octets ih =>
    rw [List.forall_mem_cons] at h
    rw [List.flatMap_cons, readOctets_encodeOctet h.1, ih h.2]

theorem decodeText_encodeText (t : Text) : decodeText (encodeText t) = t := by
  unfold decodeText encodeText
  rw [readOctets_flatMap fun _ => Octets.lt_of_mem_encode, Octets.decode_encode]

def isWritten (c : Char) : Bool := isPlain c || c = '+' || c = '%'

theorem isWritten_of_isPlain {c : Char} (h : isPlain c = true) : isWritten c = true := by
  simp [isWritten, h]

theorem isWritten_of_mem_encodeOctet {b : Nat} (h : b < 256) :
    ∀ c ∈ encodeOctet b, isWritten c = true := by
  unfold encodeOctet
  by_cases hspace : b = 0x20
  · rw [if_pos hspace, List.forall_mem_singleton]
    rfl
  rw [if_neg hspace]
  by_cases hplain : (b < 0x80 && isPlain (Char.ofNat b)) = true
  · rw [if_pos hplain, List.forall_mem_singleton]
    exact isWritten_of_isPlain (Bool.and_eq_true_iff.1 hplain).2
  · rw [if_neg hplain]
    have hhigh := isPlain_hexDigit (show b / 16 < 16 by omega)
    have hlow := isPlain_hexDigit (show b % 16 < 16 by omega)
    simp only [List.forall_mem_cons]
    exact ⟨rfl, isWritten_of_isPlain hhigh, isWritten_of_isPlain hlow, by simp⟩

theorem isWritten_of_mem_encodeText {t : Text} : ∀ c ∈ encodeText t, isWritten c = true := by
  intro c hc
  obtain ⟨b, hb, hc⟩ := List.mem_flatMap.1 hc
  exact isWritten_of_mem_encodeOctet (Octets.lt_of_mem_encode hb) c hc

theorem notMem_encodeText {c : Char} (h : isWritten c = false) (t : Text) : c ∉ encodeText t := by
  intro hc
  rw [isWritten_of_mem_encodeText c hc] at h
  nomatch h

/-! ## Pairs -/

theorem decodePair_encodePair (pair : Text × Text) : decodePair (encodePair pair) = pair := by
  unfold decodePair encodePair
  rw [Url.cut_append (notMem_encodeText rfl pair.1)]
  dsimp only
  rw [decodeText_encodeText, decodeText_encodeText]

theorem ampersand_notMem_encodePair (pair : Text × Text) : '&' ∉ encodePair pair := by
  unfold encodePair
  simp only [List.mem_append, List.mem_cons, not_or]
  exact ⟨notMem_encodeText rfl pair.1, by decide, notMem_encodeText rfl pair.2⟩

/-- The pairs that a query is made of are read back from it, in their order. -/
theorem decode_encode (pairs : List (Text × Text)) : decode (encode pairs) = pairs := by
  have hread : ((pairs.map encodePair).filter (!·.isEmpty)).map decodePair = pairs := by
    have hfilter : (pairs.map encodePair).filter (!·.isEmpty) = pairs.map encodePair := by
      rw [List.filter_eq_self, List.forall_mem_map]
      simp [encodePair]
    have hpairs : decodePair ∘ encodePair = id := funext decodePair_encodePair
    rw [hfilter, List.map_map, hpairs, List.map_id]
  unfold decode encode
  by_cases hne : pairs = []
  · subst hne
    rfl
  · have hnone : ∀ piece ∈ pairs.map encodePair, '&' ∉ piece :=
      List.forall_mem_map.2 fun pair _ => ampersand_notMem_encodePair pair
    rw [Text.fields_join hnone (by simpa using hne), hread]

/-- A query has no characters but those of its names and values, equals signs and ampersands. -/
theorem mem_encode {pairs : List (Text × Text)} {c : Char} (h : c ∈ encode pairs) :
    isWritten c = true ∨ c = '=' ∨ c = '&' := by
  have hpair : ∀ pair : Text × Text, c ∈ encodePair pair →
      isWritten c = true ∨ c = '=' := by
    intro pair hc
    unfold encodePair at hc
    rw [List.mem_append, List.mem_cons] at hc
    rcases hc with hname | hequals | hvalue
    · exact .inl (isWritten_of_mem_encodeText c hname)
    · exact .inr hequals
    · exact .inl (isWritten_of_mem_encodeText c hvalue)
  unfold encode Text.join at h
  induction pairs with
  | nil => nomatch h
  | cons pair pairs ih =>
    by_cases hne : pairs.map encodePair = []
    · rw [List.map_cons, hne, List.intercalate_singleton] at h
      exact (hpair pair h).imp_right .inl
    · rw [List.map_cons, List.intercalate_cons_of_ne_nil hne, List.mem_append, List.mem_append,
        List.mem_singleton] at h
      rcases h with (h | h) | h
      · exact (hpair pair h).imp_right .inl
      · exact .inr (.inr h)
      · exact ih h

theorem notMem_encode {c : Char} (h : isWritten c = false) (hequals : c ≠ '=')
    (hampersand : c ≠ '&') (pairs : List (Text × Text)) : c ∉ encode pairs := by
  intro hc
  rcases mem_encode hc with hwritten | hc
  · rw [h] at hwritten
    nomatch hwritten
  · exact hc.elim hequals hampersand

end Form
end ChangePairs
