import ChangePairs.Proofs.Snapshot

/-!
Slicing one hunk.  Both ranges fit, and the hunk gives a pair, or one of them does not, and the
first of those gives a report, if the numbers in it can be written (`sliceLines_eq_ok_iff`).  What
the ranges are cut into is said by `Cuts`, without the bounds of a slice.

The hunks of a file are sliced one by one: `sliceAll_eq_ok_iff` says that the pairs and the reports
of a file are those of its hunks, in order, and that no hunk changes what another one gives.
-/

namespace ChangePairs
namespace Snapshot

/-- The range holds lines that a version of `total` lines does not have. -/
def Misfits (total : Nat) (r : LineRange) : Prop :=
  r.count ≠ 0 ∧ (r.start < 1 ∨ (total : Int) < r.stop)

instance (total : Nat) (r : LineRange) : Decidable (Misfits total r) :=
  inferInstanceAs (Decidable (r.count ≠ 0 ∧ (r.start < 1 ∨ (total : Int) < r.stop)))

structure IsWritable (r : LineRange) : Prop where
  start : r.start.natAbs < tooLarge
  stop : r.stop.natAbs < tooLarge

def report (path header : Text) (side : Side) (r : LineRange) (total : Nat) : Diagnostic where
  kind := .parseError
  path := path
  message := side.rangeName ++ " range ".toList ++ Text.ofInt r.start ++ ['-'] ++
    Text.ofInt r.stop ++ " exceeds file length (".toList ++ Text.ofNat total ++ " lines)".toList
  hunkHeader := some header

/-! ## One range -/

theorem take?_eq_none_iff_misfits {lines : List Text} {r : LineRange} :
    take? lines r = none ↔ Misfits lines.length r := by
  unfold take? Misfits
  split
  · next hcount => simp [hcount]
  · next hcount =>
    split
    · next hrange => exact iff_of_true rfl ⟨hcount, hrange⟩
    · next hrange => exact iff_of_false (by simp) fun h => hrange h.2

theorem not_misfits_of_take? {lines : List Text} {r : LineRange} {t : Text}
    (h : take? lines r = some t) : ¬ Misfits lines.length r := by
  rw [← take?_eq_none_iff_misfits, h]
  nofun

theorem exists_take?_of_not_misfits {lines : List Text} {r : LineRange}
    (h : ¬ Misfits lines.length r) : ∃ t, take? lines r = some t := by
  rw [← take?_eq_none_iff_misfits] at h
  exact Option.ne_none_iff_exists'.1 h

/-- The text of the lines in a range, without the terminator of the last one. -/
inductive Cuts (lines : List Text) (r : LineRange) : Text → Prop where
  | empty (count : r.count = 0) : Cuts lines r []
  | full (count : 0 < r.count) (start : 1 ≤ r.start) (stop : r.stop ≤ lines.length) :
    Cuts lines r (Text.dropTerminator
      ((lines.drop (r.start - 1).toNat).take r.count.toNat).flatten)

theorem Cuts.unique {lines : List Text} {r : LineRange} {t u : Text} (ht : Cuts lines r t)
    (hu : Cuts lines r u) : u = t := by
  cases ht with
  | empty count =>
    cases hu with
    | empty => rfl
    | full hpos => omega
  | full hpos start stop =>
    cases hu with
    | empty count => omega
    | full => rfl

theorem Cuts.not_misfits {lines : List Text} {r : LineRange} {t : Text} (h : Cuts lines r t) :
    ¬ Misfits lines.length r := by
  unfold Misfits
  cases h with
  | empty count => omega
  | full hpos start stop => omega

theorem cuts_of_take? {lines : List Text} {r : LineRange} {t : Text} (hcount : 0 ≤ r.count)
    (h : take? lines r = some t) : Cuts lines r t := by
  unfold take? at h
  split at h
  · next hzero =>
    obtain rfl := Option.some.inj h
    exact .empty hzero
  · split at h
    · nomatch h
    · next hrange =>
      obtain rfl := Option.some.inj h
      have hstart : ((r.start - 1).toNat : Int) = r.start - 1 := by omega
      have hlength : (r.count.toNat : Int) = r.count := by omega
      have hslice : slice lines (r.start - 1) (r.start - 1 + r.count) =
          (lines.drop (r.start - 1).toNat).take r.count.toNat := by
        have hnat := slice_natCast lines (r.start - 1).toNat r.count.toNat
        rwa [hstart, hlength] at hnat
      rw [hslice]
      exact .full (by omega) (by omega) (by omega)

theorem take?_eq_some_iff {lines : List Text} {r : LineRange} {t : Text} (hcount : 0 ≤ r.count) :
    take? lines r = some t ↔ Cuts lines r t := by
  constructor
  · exact cuts_of_take? hcount
  · intro hcuts
    obtain ⟨u, hu⟩ := exists_take?_of_not_misfits hcuts.not_misfits
    rw [hu, hcuts.unique (cuts_of_take? hcount hu)]

/-! ## Reports -/

theorem writeInteger_eq_ok_iff {n : Int} {t : Text} :
    writeInteger n = .ok t ↔ n.natAbs < tooLarge ∧ t = Text.ofInt n := by
  have hlength : (Text.ofNat n.natAbs).length ≤ digitLimit ↔ n.natAbs < Nat.pow 10 digitLimit :=
    length_ofNat_le_iff (by decide)
  unfold writeInteger tooLarge
  rw [← hlength]
  split
  · next h => simp [h, eq_comm]
  · next h => simp [h]

theorem outOfRange_eq_ok_iff {path : Text} {h : Hunk} {side : Side} {total : Nat}
    {d : Diagnostic} :
    outOfRange path h side total = .ok d ↔
      IsWritable (h.range side) ∧ d = report path h.header side (h.range side) total := by
  have hbind : outOfRange path h side total = .ok d ↔
      ∃ first last, writeInteger (h.range side).start = .ok first ∧
        writeInteger (h.range side).stop = .ok last ∧
        d = ⟨.parseError, path, side.rangeName ++ " range ".toList ++ first ++ ['-'] ++ last ++
          " exceeds file length (".toList ++ Text.ofNat total ++ " lines)".toList,
          some h.header⟩ := by
    unfold outOfRange
    constructor
    · intro hok
      obtain ⟨first, hstart, hok⟩ := bind_eq_ok_iff.1 hok
      obtain ⟨last, hstop, hok⟩ := bind_eq_ok_iff.1 hok
      exact ⟨first, last, hstart, hstop, (Except.ok.inj hok).symm⟩
    · rintro ⟨first, last, hstart, hstop, rfl⟩
      exact bind_eq_ok_iff.2 ⟨first, hstart, bind_eq_ok_iff.2 ⟨last, hstop, rfl⟩⟩
  rw [hbind]
  simp only [writeInteger_eq_ok_iff]
  constructor
  · rintro ⟨first, last, ⟨hstart, rfl⟩, ⟨hstop, rfl⟩, hd⟩
    exact ⟨⟨hstart, hstop⟩, hd⟩
  · rintro ⟨⟨hstart, hstop⟩, hd⟩
    exact ⟨_, _, ⟨hstart, rfl⟩, ⟨hstop, rfl⟩, hd⟩

/-! ## One hunk -/

/-- What a hunk is sliced into.  The old range is looked at before the new one. -/
inductive Slices (path : Text) (before after : List Text) (h : Hunk) :
    Except Diagnostic SnippetPair → Prop where
  | pair {b a : Text} (old : take? before h.old = some b) (new : take? after h.new = some a) :
    Slices path before after h (.ok ⟨b, a⟩)
  | old (misfits : Misfits before.length h.old) (writable : IsWritable h.old) :
    Slices path before after h (.error (report path h.header .before h.old before.length))
  | new (fits : ¬ Misfits before.length h.old) (misfits : Misfits after.length h.new)
    (writable : IsWritable h.new) :
    Slices path before after h (.error (report path h.header .after h.new after.length))

section

variable {path : Text} {before after : List Text} {h : Hunk}

theorem sliceLines_eq_ok_iff {result : Except Diagnostic SnippetPair} :
    sliceLines path before after h = .ok result ↔ Slices path before after h result := by
  have hmap : ∀ (side : Side) (total : Nat),
      (outOfRange path h side total).map Except.error = .ok result ↔
        IsWritable (h.range side) ∧
          result = .error (report path h.header side (h.range side) total) := by
    intro side total
    rw [map_eq_ok_iff]
    constructor
    · rintro ⟨d, hd, rfl⟩
      obtain ⟨hwritable, rfl⟩ := outOfRange_eq_ok_iff.1 hd
      exact ⟨hwritable, rfl⟩
    · rintro ⟨hwritable, rfl⟩
      exact ⟨_, outOfRange_eq_ok_iff.2 ⟨hwritable, rfl⟩, rfl⟩
  unfold sliceLines
  cases hold : take? before h.old with
  | none =>
    have hmisfits := take?_eq_none_iff_misfits.1 hold
    rw [hmap .before]
    constructor
    · rintro ⟨hwritable, rfl⟩
      exact .old hmisfits hwritable
    · intro hslices
      cases hslices with
      | pair hb => rw [hold] at hb; nomatch hb
      | old _ hwritable => exact ⟨hwritable, rfl⟩
      | new hfits => exact absurd hmisfits hfits
  | some b =>
    have hfits : ¬ Misfits before.length h.old := not_misfits_of_take? hold
    cases hnew : take? after h.new with
    | none =>
      have hmisfits := take?_eq_none_iff_misfits.1 hnew
      dsimp only
      rw [hmap .after]
      constructor
      · rintro ⟨hwritable, rfl⟩
        exact .new hfits hmisfits hwritable
      · intro hslices
        cases hslices with
        | pair _ ha => rw [hnew] at ha; nomatch ha
        | old hold' => exact absurd hold' hfits
        | new _ _ hwritable => exact ⟨hwritable, rfl⟩
    | some a =>
      dsimp only
      constructor
      · intro hresult
        obtain rfl := Except.ok.inj hresult
        exact .pair hold hnew
      · intro hslices
        cases hslices with
        | pair hb ha =>
          rw [Option.some.inj (hold.symm.trans hb), Option.some.inj (hnew.symm.trans ha)]
        | old hold' => exact absurd hold' hfits
        | new _ hnew' => exact absurd hnew' (not_misfits_of_take? hnew)

/-! ## All hunks -/

def report? : Except Diagnostic SnippetPair → Option Diagnostic
  | .ok _ => none
  | .error d => some d

/-- The pairs and the reports that hunks were sliced into, empty pairs left out. -/
def gather (results : List (Except Diagnostic SnippetPair)) :
    List SnippetPair × List Diagnostic :=
  ((results.filterMap Except.toOption).filter fun pair => !pair.isEmpty,
    results.filterMap report?)

theorem gather_cons (r : Except Diagnostic SnippetPair)
    (rs : List (Except Diagnostic SnippetPair)) :
    gather (r :: rs) = match r with
      | .error d => ((gather rs).1, d :: (gather rs).2)
      | .ok pair => (if pair.isEmpty then (gather rs).1 else pair :: (gather rs).1,
        (gather rs).2) := by
  cases r with
  | error d => rfl
  | ok pair =>
    unfold gather
    dsimp only
    rw [List.filterMap_cons, List.filterMap_cons]
    show (List.filter _ (pair :: _), _) = _
    rw [List.filter_cons]
    cases pair.isEmpty <;> rfl

theorem sliceAll_cons (hunks : List Hunk) {r : Except Diagnostic SnippetPair}
    {rs : List (Except Diagnostic SnippetPair)}
    (hr : sliceLines path before after h = .ok r)
    (hrs : sliceAll path before after hunks = .ok (gather rs)) :
    sliceAll path before after (h :: hunks) = .ok (gather (r :: rs)) := by
  rw [sliceAll, hr, hrs, gather_cons]
  cases r <;> rfl

theorem sliceAll_eq_ok_iff {hunks : List Hunk} {found : List SnippetPair × List Diagnostic} :
    sliceAll path before after hunks = .ok found ↔
      ∃ results, List.Forall₂ (Slices path before after) hunks results ∧
        found = gather results := by
  constructor
  · intro hfound
    induction hunks generalizing found with
    | nil => exact ⟨[], .nil, (Except.ok.inj hfound).symm⟩
    | cons h hunks ih =>
      have hsteps := hfound
      rw [sliceAll] at hsteps
      obtain ⟨r, hr, hsteps⟩ := bind_eq_ok_iff.1 hsteps
      obtain ⟨rest, hrest, -⟩ := bind_eq_ok_iff.1 hsteps
      obtain ⟨rs, hrs, rfl⟩ := ih hrest
      rw [sliceAll_cons hunks hr hrest] at hfound
      exact ⟨r :: rs, .cons (sliceLines_eq_ok_iff.1 hr) hrs, (Except.ok.inj hfound).symm⟩
  · rintro ⟨results, hresults, rfl⟩
    induction hresults with
    | nil => rfl
    | @cons h r hunks rs hr _ ih => exact sliceAll_cons hunks (sliceLines_eq_ok_iff.2 hr) ih

end

theorem sliceFile_eq_ok_iff {path before after : Text} {hunks : List Hunk} {o : Outcome} :
    sliceFile path before after hunks = .ok o ↔
      ∃ rs, List.Forall₂ (Slices path (Text.lines before) (Text.lines after)) hunks rs ∧
        o = ⟨path, (gather rs).1, (gather rs).2⟩ := by
  unfold sliceFile
  constructor
  · intro ho
    obtain ⟨found, hslice, ho⟩ := bind_eq_ok_iff.1 ho
    obtain ⟨rs, hrs, rfl⟩ := sliceAll_eq_ok_iff.1 hslice
    exact ⟨rs, hrs, (Except.ok.inj ho).symm⟩
  · rintro ⟨rs, hrs, rfl⟩
    rw [sliceAll_eq_ok_iff.2 ⟨rs, hrs, rfl⟩]
    rfl

end Snapshot
end ChangePairs
