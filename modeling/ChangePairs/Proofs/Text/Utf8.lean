import Mathlib.Tactic.SplitIfs
import ChangePairs.Text.Utf8
import ChangePairs.Proofs.Failure

/-!
Reading back what was written in UTF-8.  A reader makes a character of its octets, whatever follows
them (`reads_ofChar`), and of no others (`Reads.eq_ofChar`).  So a text comes back from its octets
(`decode_encode`), and octets without a broken character are those of a text, in however many parts
they come (`Decoder.parts_eq_iff`).

A place between two octets need not lie between two characters.  Where it does, the octets before
it are those of a start of the text, and the octets between two such places are read as the text
between them (`IsFront.append_decode`), no matter that they are read on their own.
-/

namespace ChangePairs
namespace Octets

theorem encode_append (s t : Text) : encode (s ++ t) = encode s ++ encode t :=
  List.flatMap_append

theorem encode_cons (c : Char) (t : Text) : encode (c :: t) = ofChar c ++ encode t :=
  List.flatMap_cons

/-! ## One octet -/

section

variable {r next : Reader} {b : Nat} {c : Char}

theorem decodeFrom_of_char (h : r.step b = .char c) (rest : Octets) :
    decodeFrom r (b :: rest) = c :: decodeFrom .ready rest := by
  cases r <;> simp only [decodeFrom, h]

theorem decodeFrom_of_more (h : r.step b = .more next) (rest : Octets) :
    decodeFrom r (b :: rest) = decodeFrom next rest := by
  cases r <;> simp only [decodeFrom, h]

theorem scan_of_char (h : r.step b = .char c) (position : Nat) (taken rest : Octets) :
    scan position taken r (b :: rest) =
      (scan (position + 1) [] .ready rest).map fun (t, d) => (c :: t, d) := by
  cases r <;> simp only [scan, h]

theorem scan_of_more (h : r.step b = .more next) (position : Nat) (taken rest : Octets) :
    scan position taken r (b :: rest) = scan (position + 1) (b :: taken) next rest := by
  cases r <;> simp only [scan, h]

theorem exists_scan_of_refused (h : r.step b = .refused) (position : Nat) (taken rest : Octets) :
    ∃ fault, scan position taken r (b :: rest) = .error fault := by
  cases r <;> simp only [scan, h] <;> exact ⟨_, rfl⟩

end

/-- An octet that a character owes. -/
theorem step_inside {owed low high value d : Nat} (hlow : low ≤ 0x80 + d) (hhigh : 0x80 + d ≤ high) :
    (Reader.inside owed low high value).step (0x80 + d) =
      if owed ≤ 1 then .char (Char.ofNat (value * 64 + d))
      else .more (.inside (owed - 1) 0x80 0xBF (value * 64 + d)) := by
  simp only [Reader.step]
  rw [if_pos ⟨hlow, hhigh⟩, Nat.add_sub_cancel_left]

theorem start_two {k : Nat} (hlow : 2 ≤ k) (hhigh : k < 32) :
    start (0xC0 + k) = .more (.inside 1 0x80 0xBF k) := by
  unfold start
  rw [if_neg (by omega), if_pos (by omega), Nat.add_sub_cancel_left]

/-- The first octet of three bounds the second one. -/
theorem start_three {k d : Nat} (hk : k < 16) (hd : d < 64) (hshort : k = 0 → 32 ≤ d)
    (hsurrogate : k = 13 → d < 32) :
    ∃ low high, start (0xE0 + k) = .more (.inside 2 low high k) ∧
      low ≤ 0x80 + d ∧ 0x80 + d ≤ high := by
  unfold start
  rw [if_neg (by omega), if_neg (by omega), Nat.add_sub_cancel_left]
  by_cases h0 : k = 0
  · have hd := hshort h0
    refine ⟨0xA0, 0xBF, ?_, by omega, by omega⟩
    rw [if_pos (by omega)]
  · rw [if_neg (by omega)]
    by_cases h13 : k = 13
    · have hd := hsurrogate h13
      refine ⟨0x80, 0x9F, ?_, by omega, by omega⟩
      rw [if_pos (by omega)]
    · refine ⟨0x80, 0xBF, ?_, by omega, by omega⟩
      rw [if_neg (by omega), if_pos (by omega)]

/-- The first octet of four bounds the second one. -/
theorem start_four {k d : Nat} (hk : k < 5) (hd : d < 64) (hshort : k = 0 → 16 ≤ d)
    (hlarge : k = 4 → d < 16) :
    ∃ low high, start (0xF0 + k) = .more (.inside 3 low high k) ∧
      low ≤ 0x80 + d ∧ 0x80 + d ≤ high := by
  unfold start
  rw [if_neg (by omega), if_neg (by omega), if_neg (by omega), if_neg (by omega),
    if_neg (by omega), Nat.add_sub_cancel_left]
  by_cases h0 : k = 0
  · have hd := hshort h0
    refine ⟨0x90, 0xBF, ?_, by omega, by omega⟩
    rw [if_pos (by omega)]
  · rw [if_neg (by omega)]
    by_cases h4 : k = 4
    · have hd := hlarge h4
      refine ⟨0x80, 0x8F, ?_, by omega, by omega⟩
      rw [if_neg (by omega), if_pos (by omega)]
    · refine ⟨0x80, 0xBF, ?_, by omega, by omega⟩
      rw [if_pos (by omega)]

/-! ## One character -/

/-- From where it stands, the reader makes a character of just these octets. -/
inductive Reads : Reader → Octets → Char → Prop where
  | last {r : Reader} {b : Nat} {c : Char} (h : r.step b = .char c) : Reads r [b] c
  | more {r next : Reader} {b : Nat} {octets : Octets} {c : Char} (h : r.step b = .more next)
      (hrest : Reads next octets c) : Reads r (b :: octets) c

theorem Reads.decodeFrom_append {r : Reader} {octets : Octets} {c : Char} (h : Reads r octets c)
    (rest : Octets) : decodeFrom r (octets ++ rest) = c :: decodeFrom .ready rest := by
  induction h with
  | last h => exact decodeFrom_of_char h rest
  | more h _ ih => rw [List.cons_append, decodeFrom_of_more h, ih]

theorem Reads.scan_append {r : Reader} {octets rest : Octets} {c : Char} {t : Text} {d : Decoder}
    (h : Reads r octets c) (hrest : ∀ position, scan position [] .ready rest = .ok (t, d))
    (position : Nat) (taken : Octets) :
    scan position taken r (octets ++ rest) = .ok (c :: t, d) := by
  induction h generalizing position taken with
  | last h =>
    rw [List.singleton_append, scan_of_char h, hrest]
    rfl
  | more h _ ih =>
    rw [List.cons_append, scan_of_more h]
    exact ih _ _

theorem reads_last {low high value d n : Nat} (hlow : low ≤ 0x80 + d) (hhigh : 0x80 + d ≤ high)
    (hn : value * 64 + d = n) : Reads (.inside 1 low high value) [0x80 + d] (Char.ofNat n) :=
  .last (hn ▸ (step_inside hlow hhigh).trans (if_pos (Nat.le_refl 1)))

theorem Reads.next {owed low high value d : Nat} {octets : Octets} {c : Char} (howed : 1 < owed)
    (hlow : low ≤ 0x80 + d) (hhigh : 0x80 + d ≤ high)
    (h : Reads (.inside (owed - 1) 0x80 0xBF (value * 64 + d)) octets c) :
    Reads (.inside owed low high value) ((0x80 + d) :: octets) c :=
  .more ((step_inside hlow hhigh).trans (if_neg (by omega))) h

theorem reads_one {n : Nat} (h : n < 0x80) : Reads .ready [n] (Char.ofNat n) :=
  .last (if_pos h)

theorem reads_two {n : Nat} (hlow : 0x80 ≤ n) (hhigh : n < 0x800) :
    Reads .ready [0xC0 + n / 64, 0x80 + n % 64] (Char.ofNat n) :=
  .more (start_two (by omega) (by omega)) (reads_last (by omega) (by omega) (by omega))

theorem reads_three {n : Nat} (hlow : 0x800 ≤ n) (hhigh : n < 0x10000)
    (hsurrogate : ¬ (0xD800 ≤ n ∧ n < 0xE000)) :
    Reads .ready [0xE0 + n / 4096, 0x80 + n / 64 % 64, 0x80 + n % 64] (Char.ofNat n) := by
  obtain ⟨low, high, hstart, hl, hh⟩ := @start_three (n / 4096) (n / 64 % 64) (by omega)
    (by omega) (by omega) (by omega)
  exact .more hstart (.next (by omega) hl hh (reads_last (by omega) (by omega) (by omega)))

theorem reads_four {n : Nat} (hlow : 0x10000 ≤ n) (hhigh : n < 0x110000) :
    Reads .ready [0xF0 + n / 262144, 0x80 + n / 4096 % 64, 0x80 + n / 64 % 64, 0x80 + n % 64]
      (Char.ofNat n) := by
  obtain ⟨low, high, hstart, hl, hh⟩ := @start_four (n / 262144) (n / 4096 % 64) (by omega)
    (by omega) (by omega) (by omega)
  refine .more hstart (.next (by omega) hl hh (.next (by omega) (by omega) (by omega) ?_))
  exact reads_last (by omega) (by omega) (by omega)

theorem toNat_valid (c : Char) :
    c.toNat < 0x110000 ∧ ¬ (0xD800 ≤ c.toNat ∧ c.toNat < 0xE000) := by
  have h : c.toNat.isValidChar := c.valid
  unfold Nat.isValidChar at h
  omega

/-- Of the octets of a character, the reader makes that character. -/
theorem reads_ofChar (c : Char) : Reads .ready (ofChar c) c := by
  obtain ⟨hmax, hsurrogate⟩ := toNat_valid c
  have hc := Char.ofNat_toNat c
  unfold ofChar
  generalize c.toNat = n at hmax hsurrogate hc
  rw [← hc]
  dsimp only
  by_cases h1 : n < 0x80
  · rw [if_pos h1]
    exact reads_one h1
  rw [if_neg h1]
  by_cases h2 : n < 0x800
  · rw [if_pos h2]
    exact reads_two (by omega) h2
  rw [if_neg h2]
  by_cases h3 : n < 0x10000
  · rw [if_pos h3]
    exact reads_three (by omega) h3 hsurrogate
  · rw [if_neg h3]
    exact reads_four (by omega) hmax

/-! ## No other octets -/

theorem exists_of_step_inside {owed low high value b : Nat} (hlow : 0x80 ≤ low)
    (h : (Reader.inside owed low high value).step b ≠ .refused) :
    ∃ d, b = 0x80 + d ∧ low ≤ 0x80 + d ∧ 0x80 + d ≤ high := by
  simp only [Reader.step] at h
  split at h
  · next hin => exact ⟨b - 0x80, by omega, by omega, by omega⟩
  · exact absurd rfl h

theorem Reads.exists_of_inside_one {low high value : Nat} {octets : Octets} {c : Char}
    (h : Reads (.inside 1 low high value) octets c) (hlow : 0x80 ≤ low) :
    ∃ d, octets = [0x80 + d] ∧ low ≤ 0x80 + d ∧ 0x80 + d ≤ high ∧
      c = Char.ofNat (value * 64 + d) := by
  cases h with
  | @last _ b _ h =>
    obtain ⟨d, rfl, hl, hh⟩ := exists_of_step_inside (b := b) hlow (by rw [h]; nofun)
    rw [step_inside hl hh] at h
    exact ⟨d, rfl, hl, hh, (Step.char.inj h).symm⟩
  | @more _ next b rest _ h _ =>
    obtain ⟨d, rfl, hl, hh⟩ := exists_of_step_inside (b := b) hlow (by rw [h]; nofun)
    rw [step_inside hl hh] at h
    nomatch h

theorem Reads.exists_of_inside_succ {owed low high value : Nat} {octets : Octets} {c : Char}
    (h : Reads (.inside (owed + 2) low high value) octets c) (hlow : 0x80 ≤ low) :
    ∃ d rest, octets = (0x80 + d) :: rest ∧ low ≤ 0x80 + d ∧ 0x80 + d ≤ high ∧
      Reads (.inside (owed + 1) 0x80 0xBF (value * 64 + d)) rest c := by
  cases h with
  | @last _ b _ h =>
    obtain ⟨d, rfl, hl, hh⟩ := exists_of_step_inside (b := b) hlow (by rw [h]; nofun)
    rw [step_inside hl hh, if_neg (by omega)] at h
    nomatch h
  | @more _ next b rest _ h hrest =>
    obtain ⟨d, rfl, hl, hh⟩ := exists_of_step_inside (b := b) hlow (by rw [h]; nofun)
    rw [step_inside hl hh, if_neg (by omega)] at h
    obtain rfl := Step.more.inj h
    exact ⟨d, rest, rfl, hl, hh, hrest⟩

/-- The first of several octets, and where it leaves the reader. -/
inductive Opens : Nat → Reader → Prop where
  | two {b : Nat} (hmin : 0xC2 ≤ b) (hmax : b ≤ 0xDF) : Opens b (.inside 1 0x80 0xBF (b - 0xC0))
  | three {b low high : Nat} (hmin : 0xE0 ≤ b) (hmax : b ≤ 0xEF) (hlow : 0x80 ≤ low)
      (hhigh : high ≤ 0xBF) (hshort : b = 0xE0 → 0xA0 ≤ low) (hsurrogate : b = 0xED → high ≤ 0x9F) :
      Opens b (.inside 2 low high (b - 0xE0))
  | four {b low high : Nat} (hmin : 0xF0 ≤ b) (hmax : b ≤ 0xF4) (hlow : 0x80 ≤ low)
      (hhigh : high ≤ 0xBF) (hshort : b = 0xF0 → 0x90 ≤ low) (hlarge : b = 0xF4 → high ≤ 0x8F) :
      Opens b (.inside 3 low high (b - 0xF0))

theorem opens_of_start {b : Nat} {next : Reader} (h : start b = .more next) : Opens b next := by
  unfold start at h
  split_ifs at h
  · obtain rfl := Step.more.inj h
    exact .two (by omega) (by omega)
  · obtain rfl := Step.more.inj h
    exact .three (by omega) (by omega) (by omega) (by omega) (by omega) (by omega)
  · obtain rfl := Step.more.inj h
    exact .three (by omega) (by omega) (by omega) (by omega) (by omega) (by omega)
  · obtain rfl := Step.more.inj h
    exact .three (by omega) (by omega) (by omega) (by omega) (by omega) (by omega)
  · obtain rfl := Step.more.inj h
    exact .four (by omega) (by omega) (by omega) (by omega) (by omega) (by omega)
  · obtain rfl := Step.more.inj h
    exact .four (by omega) (by omega) (by omega) (by omega) (by omega) (by omega)
  · obtain rfl := Step.more.inj h
    exact .four (by omega) (by omega) (by omega) (by omega) (by omega) (by omega)

theorem step_ne_more_ready (r : Reader) (b : Nat) : r.step b ≠ .more .ready := by
  cases r with
  | ready => exact fun h => nomatch opens_of_start h
  | inside owed low high value =>
    simp only [Reader.step]
    split_ifs <;> nofun

theorem ofChar_ofNat {n : Nat} (hmax : n < 0x110000) (hsurrogate : ¬ (0xD800 ≤ n ∧ n < 0xE000)) :
    ofChar (Char.ofNat n) =
      if n < 0x80 then [n]
      else if n < 0x800 then [0xC0 + n / 64, 0x80 + n % 64]
      else if n < 0x10000 then [0xE0 + n / 4096, 0x80 + n / 64 % 64, 0x80 + n % 64]
      else [0xF0 + n / 262144, 0x80 + n / 4096 % 64, 0x80 + n / 64 % 64, 0x80 + n % 64] := by
  have hvalid : n.isValidChar := by
    unfold Nat.isValidChar
    omega
  have hn : (Char.ofNat n).toNat = n := by
    unfold Char.ofNat
    rw [dif_pos hvalid]
    rfl
  unfold ofChar
  rw [hn]

/-- A reader makes a character of its octets only. -/
theorem Reads.eq_ofChar {octets : Octets} {c : Char} (h : Reads .ready octets c) :
    octets = ofChar c := by
  cases h with
  | @last _ b _ h =>
    simp only [Reader.step] at h
    unfold start at h
    split_ifs at h
    next hone =>
    rw [← Step.char.inj h, ofChar_ofNat (by omega) (by omega), if_pos hone]
  | @more _ next b rest _ h hrest =>
    cases opens_of_start h with
    | two hmin hmax =>
      obtain ⟨d, rfl, hl, hh, rfl⟩ := hrest.exists_of_inside_one (by omega)
      rw [ofChar_ofNat (by omega) (by omega), if_neg (by omega), if_pos (by omega)]
      simp only [List.cons.injEq, and_true]
      omega
    | three hmin hmax hlow hhigh hshort hsurrogate =>
      obtain ⟨d, rest, rfl, hl, hh, hrest⟩ := hrest.exists_of_inside_succ hlow
      obtain ⟨e, rfl, hl', hh', rfl⟩ := hrest.exists_of_inside_one (by omega)
      rw [ofChar_ofNat (by omega) (by omega), if_neg (by omega), if_neg (by omega),
        if_pos (by omega)]
      simp only [List.cons.injEq, and_true]
      omega
    | four hmin hmax hlow hhigh hshort hlarge =>
      obtain ⟨d, rest, rfl, hl, hh, hrest⟩ := hrest.exists_of_inside_succ hlow
      obtain ⟨e, rest, rfl, hl', hh', hrest⟩ := hrest.exists_of_inside_succ (by omega)
      obtain ⟨f, rfl, hl'', hh'', rfl⟩ := hrest.exists_of_inside_one (by omega)
      rw [ofChar_ofNat (by omega) (by omega), if_neg (by omega), if_neg (by omega),
        if_neg (by omega)]
      simp only [List.cons.injEq, and_true]
      omega

/-- An octet of a character is all of it or one that no character is made of alone. -/
theorem eq_or_of_mem_ofChar {c : Char} {b : Nat} (h : b ∈ ofChar c) :
    (b < 0x80 ∧ b = c.toNat) ∨ (0x80 ≤ b ∧ b < 0x100) := by
  have hmax := (toNat_valid c).1
  unfold ofChar at h
  dsimp only at h
  split at h
  · simp only [List.mem_singleton] at h
    omega
  · split at h
    · simp only [List.mem_cons, List.not_mem_nil, or_false] at h
      omega
    · split at h
      · simp only [List.mem_cons, List.not_mem_nil, or_false] at h
        omega
      · simp only [List.mem_cons, List.not_mem_nil, or_false] at h
        omega

theorem lt_of_mem_encode {t : Text} {b : Nat} (h : b ∈ encode t) : b < 0x100 := by
  obtain ⟨c, -, hb⟩ := List.mem_flatMap.1 h
  rcases eq_or_of_mem_ofChar hb with hb | hb
  · omega
  · exact hb.2

/-- A text comes back from its octets. -/
theorem decode_encode (t : Text) : decode (encode t) = t := by
  unfold decode
  induction t with
  | nil => rfl
  | cons c t ih => rw [encode_cons, (reads_ofChar c).decodeFrom_append, ih]

theorem encode_injective {s t : Text} (h : encode s = encode t) : s = t := by
  rw [← decode_encode s, h, decode_encode]

/-! ## Octets in parts

However the octets of a text are cut into parts, they are read as that text, and no others are read
without a broken character (`parts_eq_iff`).  The positions of a decoder start again with each part,
so what is said of them is that they do not matter where nothing is broken. -/

theorem scan_eq_ok_of_position {position other : Nat} {taken octets : Octets} {r : Reader}
    {x : Text × Decoder} (h : scan position taken r octets = .ok x) :
    scan other taken r octets = .ok x := by
  induction octets generalizing position other taken r x with
  | nil => exact h
  | cons b octets ih =>
    cases hstep : r.step b with
    | char c =>
      rw [scan_of_char hstep] at h ⊢
      obtain ⟨y, hscan, rfl⟩ := map_eq_ok_iff.1 h
      exact map_eq_ok_iff.2 ⟨y, ih hscan, rfl⟩
    | more next =>
      rw [scan_of_more hstep] at h ⊢
      exact ih h
    | refused =>
      obtain ⟨fault, hfault⟩ := exists_scan_of_refused hstep position taken octets
      rw [hfault] at h
      nomatch h

theorem scan_append (position : Nat) (taken : Octets) (r : Reader) (a b : Octets) :
    scan position taken r (a ++ b) = (do
      let (t, d) ← scan position taken r a
      (scan (position + a.length) d.taken d.reader b).map fun (u, e) => (t ++ u, e)) := by
  induction a generalizing position taken r with
  | nil =>
    show scan position taken r b = (scan position taken r b).map _
    cases scan position taken r b <;> rfl
  | cons x a ih =>
    have hlength : position + (x :: a).length = position + 1 + a.length := by
      rw [List.length_cons]
      omega
    rw [List.cons_append, hlength]
    cases hstep : r.step x with
    | char c =>
      rw [scan_of_char hstep, scan_of_char hstep, ih]
      cases scan (position + 1) [] .ready a with
      | error => rfl
      | ok y =>
        show Except.map _ (Except.map _ _) = Except.map _ _
        cases scan (position + 1 + a.length) y.2.taken y.2.reader b <;> rfl
    | more next => rw [scan_of_more hstep, scan_of_more hstep, ih]
    | refused =>
      cases r with
      | ready => simp only [scan, hstep]; rfl
      | inside => simp only [scan, hstep]; rfl

namespace Decoder

variable {d e : Decoder} {t : Text}

/-- Two parts one after the other are read like one. -/
theorem part_append_eq_ok_iff {a b : Octets} : d.part (a ++ b) = .ok (t, e) ↔
    ∃ t₁ next t₂, d.part a = .ok (t₁, next) ∧ next.part b = .ok (t₂, e) ∧ t = t₁ ++ t₂ := by
  unfold part
  rw [scan_append, bind_eq_ok_iff]
  constructor
  · rintro ⟨⟨t₁, next⟩, ha, h⟩
    obtain ⟨⟨t₂, _⟩, hb, heq⟩ := map_eq_ok_iff.1 h
    obtain ⟨rfl, rfl⟩ := Prod.mk.inj heq
    exact ⟨t₁, next, t₂, ha, scan_eq_ok_of_position hb, rfl⟩
  · rintro ⟨t₁, next, t₂, ha, hb, rfl⟩
    exact ⟨(t₁, next), ha, map_eq_ok_iff.2 ⟨(t₂, e), scan_eq_ok_of_position hb, rfl⟩⟩

theorem parts_eq_iff_part {parts : List Octets} : d.parts parts = (t, none) ↔
    ∃ e, d.part parts.flatten = .ok (t, e) ∧ e.cutOff? = none := by
  induction parts generalizing d t with
  | nil =>
    constructor
    · intro h
      obtain ⟨rfl, hd⟩ := Prod.mk.inj h
      exact ⟨d, rfl, hd⟩
    · rintro ⟨e, h, he⟩
      obtain ⟨rfl, rfl⟩ := Prod.mk.inj (Except.ok.inj h)
      exact congrArg _ he
  | cons octets rest ih =>
    simp only [List.flatten_cons, part_append_eq_ok_iff]
    unfold Decoder.parts
    cases hpart : d.part octets with
    | error fault =>
      constructor
      · nofun
      · rintro ⟨_, ⟨_, _, _, h, -⟩, -⟩
        nomatch h
    | ok x =>
      dsimp only
      constructor
      · intro h
        obtain ⟨rfl, hnone⟩ := Prod.mk.inj h
        obtain ⟨e, he, hcut⟩ := ih.1 (Prod.ext rfl hnone)
        exact ⟨e, ⟨x.1, x.2, _, rfl, he, rfl⟩, hcut⟩
      · rintro ⟨e, ⟨t₁, next, t₂, h, he, rfl⟩, hcut⟩
        obtain rfl := Except.ok.inj h
        rw [ih.2 ⟨e, he, hcut⟩]

theorem scan_encode (t : Text) (position : Nat) :
    scan position [] .ready (encode t) = .ok (t, start) := by
  induction t generalizing position with
  | nil => rfl
  | cons c t ih =>
    rw [encode_cons]
    exact (reads_ofChar c).scan_append ih position []

/-- Without a broken character, the octets are those that a character owes, if the reader is inside
one, and those of a text. -/
theorem exists_of_scan_eq_ok {position : Nat} {taken octets : Octets} {r : Reader}
    (h : scan position taken r octets = .ok (t, e)) (he : e.cutOff? = none) :
    (r = .ready ∧ octets = [] ∧ t = []) ∨
      ∃ owed c u, Reads r owed c ∧ octets = owed ++ encode u ∧ t = c :: u := by
  induction octets generalizing position taken r t with
  | nil =>
    obtain ⟨rfl, rfl⟩ := Prod.mk.inj (Except.ok.inj h)
    cases r with
    | ready => exact .inl ⟨rfl, rfl, rfl⟩
    | inside => nomatch he
  | cons b octets ih =>
    cases hstep : r.step b with
    | char c =>
      rw [scan_of_char hstep] at h
      obtain ⟨y, hscan, hy⟩ := map_eq_ok_iff.1 h
      obtain ⟨rfl, rfl⟩ := Prod.mk.inj hy
      rcases ih hscan with ⟨-, rfl, hnil⟩ | ⟨owed, d, u, howed, rfl, hcons⟩
      · exact .inr ⟨[b], c, [], .last hstep, rfl, congrArg _ hnil⟩
      · refine .inr ⟨[b], c, d :: u, .last hstep, ?_, congrArg _ hcons⟩
        rw [encode_cons, howed.eq_ofChar]
        rfl
    | more next =>
      rw [scan_of_more hstep] at h
      rcases ih h with ⟨rfl, -⟩ | ⟨owed, c, u, howed, rfl, rfl⟩
      · exact absurd hstep (step_ne_more_ready r b)
      · exact .inr ⟨b :: owed, c, u, .more hstep howed, rfl, rfl⟩
    | refused =>
      obtain ⟨fault, hfault⟩ := exists_scan_of_refused hstep position taken octets
      rw [hfault] at h
      nomatch h

/-- Parts are read as a text, without a broken character, exactly when they are made of its
octets. -/
theorem parts_eq_iff {parts : List Octets} :
    start.parts parts = (t, none) ↔ parts.flatten = encode t := by
  rw [parts_eq_iff_part]
  constructor
  · rintro ⟨e, h, he⟩
    rcases exists_of_scan_eq_ok h he with ⟨-, hnil, rfl⟩ | ⟨owed, c, u, howed, hparts, rfl⟩
    · exact hnil
    · rw [hparts, encode_cons, howed.eq_ofChar]
  · intro h
    exact ⟨start, h ▸ scan_encode t _, rfl⟩

end Decoder

/-! ## Places between characters -/

/-- The start of a text that ends before octet `n`. -/
structure IsFront (t : Text) (n : Nat) (front : Text) : Prop where
  isPrefix : front <+: t
  length : (encode front).length = n

/-- Octet `n` begins a character of the text, or the text ends before it. -/
def IsBoundary (t : Text) (n : Nat) : Prop := ∃ front, IsFront t n front

namespace IsFront

variable {t p q : Text} {a b : Nat}

theorem nil (t : Text) : IsFront t 0 [] := ⟨⟨t, rfl⟩, rfl⟩

theorem take_encode (h : IsFront t a p) : (encode t).take a = encode p := by
  obtain ⟨rest, rfl⟩ := h.isPrefix
  rw [encode_append, ← h.length, List.take_left]

theorem unique (hp : IsFront t a p) (hq : IsFront t a q) : p = q :=
  encode_injective (hp.take_encode.symm.trans hq.take_encode)

/-- A start that ends earlier is a start of one that ends later. -/
theorem isPrefix_of_le (hp : IsFront t a p) (hq : IsFront t b q) (hab : a ≤ b) : p <+: q := by
  rcases Nat.le_total p.length q.length with hle | hle
  · exact List.prefix_of_prefix_length_le hp.isPrefix hq.isPrefix hle
  · -- Both end in the same place then, since no character has fewer octets than none.
    obtain ⟨rest, hrest⟩ := List.prefix_of_prefix_length_le hq.isPrefix hp.isPrefix hle
    have hlength := congrArg (fun s => (encode s).length) hrest
    simp only [encode_append, List.length_append, hp.length, hq.length] at hlength
    have hab : b = a := by omega
    subst hab
    exact (hp.unique hq) ▸ List.prefix_rfl

/-- The octets between two places between characters are read as the text between them. -/
theorem append_decode (hp : IsFront t a p) (hq : IsFront t b q) (hab : a ≤ b) :
    p ++ decode (((encode t).take b).drop a) = q := by
  obtain ⟨x, rfl⟩ := hp.isPrefix_of_le hq hab
  rw [hq.take_encode, encode_append, ← hp.length, List.drop_left, decode_encode]

end IsFront

end Octets
end ChangePairs
