import ChangePairs.Proofs.Pairing
import ChangePairs.Proofs.Snapshot.Slicing

/-!
What a snippet is in the text that it was cut out of.  A text with a range of its lines falls into
whole lines in front, the lines of the range and whole lines behind, and the snippet is the middle
part without the longest terminator at its end (`IsExcerpt`).  This is said with the lines of the
parts and without a slice or a place in a list, and `cuts_iff_isSnippet` says that cutting comes to
just that.

The main statement is `sliceHunk_excerpts`: a hunk whose ranges may stand in a header is sliced into
its two snippets, or reported for the first range that goes on behind the last line, if and only if
that report can be written.
-/

namespace ChangePairs

/-! ## Terminators -/

namespace Text

def terminators : List Text := [['\r', '\n'], ['\n'], ['\r'], []]

/-- The longest terminator with which the text ends. -/
structure IsTerminatorOf (terminator t : Text) : Prop where
  known : terminator ∈ terminators
  atEnd : terminator <:+ t
  longest : ∀ other ∈ terminators, other <:+ t → other.length ≤ terminator.length

theorem IsTerminatorOf.unique {terminator other t : Text} (h : IsTerminatorOf terminator t)
    (h' : IsTerminatorOf other t) : other = terminator := by
  have hle := h.longest other h'.known h'.atEnd
  have hge := h'.longest terminator h.known h.atEnd
  exact (List.suffix_of_suffix_length_le h'.atEnd h.atEnd hle).eq_of_length (by omega)

theorem suffix_concat (front : Text) {t : Text} {a c : Char} (h : front ++ [a] <:+ t ++ [c]) :
    a = c ∧ front <:+ t := by
  rcases List.suffix_concat_iff.1 h with hnil | ⟨u, heq, hsuffix⟩
  · exact absurd hnil (List.append_ne_nil_of_right_ne_nil front (List.cons_ne_nil a []))
  · obtain ⟨rfl, hlast⟩ := List.append_inj' heq rfl
    exact ⟨List.singleton_inj.1 hlast, hsuffix⟩

theorem isTerminatorOf_single {t : Text} {c : Char} (hknown : [c] ∈ terminators)
    (hend : [c] <:+ t) (hpair : ¬ ['\r', '\n'] <:+ t) : IsTerminatorOf [c] t := by
  have hshort : ∀ other ∈ terminators, other ≠ ['\r', '\n'] → other.length ≤ 1 := by decide
  refine ⟨hknown, hend, fun other hother h => hshort other hother ?_⟩
  rintro rfl
  exact hpair h

theorem isTerminatorOf_nil {t : Text} (h : ∀ c, t.getLast? = some c → c ≠ '\n' ∧ c ≠ '\r') :
    IsTerminatorOf [] t := by
  have hlast : ∀ {front : Text} {c : Char}, front ++ [c] <:+ t → c ≠ '\n' ∧ c ≠ '\r' := by
    rintro front c ⟨x, rfl⟩
    exact h c (by simp)
  refine ⟨by decide, List.nil_suffix, fun other hother hend => ?_⟩
  simp only [terminators, List.mem_cons, List.not_mem_nil, or_false] at hother
  rcases hother with rfl | rfl | rfl | rfl
  · exact absurd rfl (@hlast ['\r'] _ hend).1
  · exact absurd rfl (@hlast [] _ hend).1
  · exact absurd rfl (@hlast [] _ hend).2
  · exact Nat.le_refl 0

/-- What is dropped at the end of a text is the longest terminator there. -/
theorem exists_terminator (t : Text) :
    ∃ terminator, t = dropTerminator t ++ terminator ∧ IsTerminatorOf terminator t := by
  rcases List.eq_nil_or_concat t with rfl | ⟨x, c, rfl⟩
  · exact ⟨[], rfl, isTerminatorOf_nil nofun⟩
  · rw [List.concat_eq_append]
    by_cases hfeed : c = '\n'
    · subst hfeed
      rw [dropTerminator_feed]
      unfold dropReturn
      split
      · next hreturn =>
        obtain ⟨y, rfl⟩ := List.getLast?_eq_some_iff.1 hreturn
        refine ⟨['\r', '\n'], by simp, by decide, ⟨y, by simp⟩, ?_⟩
        exact fun other hother _ => (by decide : ∀ other ∈ terminators, other.length ≤ 2) other hother
      · next hreturn =>
        refine ⟨['\n'], rfl, isTerminatorOf_single (by decide) (List.suffix_append x _) ?_⟩
        intro hpair
        obtain ⟨-, y, rfl⟩ := suffix_concat ['\r'] hpair
        exact hreturn List.getLast?_concat
    · rw [dropTerminator_of_getLast? List.getLast?_concat hfeed]
      unfold dropReturn
      split
      · next hreturn =>
        obtain rfl : c = '\r' := by simpa using hreturn
        refine ⟨['\r'], by simp, isTerminatorOf_single (by decide) (List.suffix_append x _) ?_⟩
        exact fun hpair => absurd (suffix_concat ['\r'] hpair).1 (by decide)
      · next hreturn =>
        refine ⟨[], (List.append_nil _).symm, isTerminatorOf_nil fun d hd => ?_⟩
        obtain rfl : c = d := by simpa using hd
        exact ⟨hfeed, fun hc => hreturn (by simp [hc])⟩

theorem dropTerminator_append {snippet terminator : Text}
    (h : IsTerminatorOf terminator (snippet ++ terminator)) :
    dropTerminator (snippet ++ terminator) = snippet := by
  obtain ⟨other, heq, hother⟩ := exists_terminator (snippet ++ terminator)
  rw [h.unique hother] at heq
  exact (List.append_cancel_right heq).symm

end Text

namespace Snapshot

/-! ## One range -/

/-- A text in four parts: the lines in front of a range, the lines of the range with the
terminator at the end taken off, that terminator, and the lines behind the range. -/
structure IsExcerpt (text : Text) (r : LineRange) (front snippet terminator back : Text) :
    Prop where
  text_eq : text = front ++ snippet ++ terminator ++ back
  lines_eq : Text.lines text =
    Text.lines front ++ Text.lines (snippet ++ terminator) ++ Text.lines back
  before : ((Text.lines front).length : Int) = r.start - 1
  inside : ((Text.lines (snippet ++ terminator)).length : Int) = r.count
  terminator : Text.IsTerminatorOf terminator (snippet ++ terminator)

/-- The snippet of a range: nothing if the range has no line. -/
inductive IsSnippet (text : Text) (r : LineRange) : Text → Prop where
  | empty (count : r.count = 0) : IsSnippet text r []
  | excerpt {front snippet terminator back : Text} (count : 0 < r.count)
    (cut : IsExcerpt text r front snippet terminator back) : IsSnippet text r snippet

theorem isSnippet_of_cuts {text snippet : Text} {r : LineRange}
    (h : Cuts (Text.lines text) r snippet) : IsSnippet text r snippet := by
  cases h with
  | empty count => exact .empty count
  | full hpos hstart hstop =>
    unfold LineRange.stop at hstop
    generalize hk : (r.start - 1).toNat = k
    generalize hn : r.count.toNat = n
    have hall := Text.areLines_lines text
    have hparts : Text.lines text = (Text.lines text).take k ++
        ((Text.lines text).drop k).take n ++ (Text.lines text).drop (k + n) := by
      rw [List.append_assoc, ← List.drop_drop, List.take_append_drop, List.take_append_drop]
    have hfront := Text.lines_flatten (hall.take k)
    have hinside := Text.lines_flatten ((hall.drop k).take n)
    have hback := Text.lines_flatten (hall.drop (k + n))
    obtain ⟨terminator, hterminator, hlongest⟩ :=
      Text.exists_terminator (((Text.lines text).drop k).take n).flatten
    refine @IsSnippet.excerpt _ _ ((Text.lines text).take k).flatten _ terminator
      ((Text.lines text).drop (k + n)).flatten hpos ⟨?_, ?_, ?_, ?_, ?_⟩
    · rw [List.append_assoc _ _ terminator, ← hterminator, ← List.flatten_append,
        ← List.flatten_append, ← hparts, Text.flatten_lines]
    · rw [← hterminator, hfront, hinside, hback]
      exact hparts
    · rw [hfront, List.length_take]
      omega
    · rw [← hterminator, hinside, List.length_take, List.length_drop]
      omega
    · rwa [← hterminator]

theorem cuts_of_isSnippet {text snippet : Text} {r : LineRange} (h : IsSnippet text r snippet) :
    Cuts (Text.lines text) r snippet := by
  cases h with
  | empty count => exact .empty count
  | @excerpt front _ terminator back hpos hcut =>
    have hbefore := hcut.before
    have hinside := hcut.inside
    have hlines := hcut.lines_eq
    have hlength := congrArg List.length hlines
    simp only [List.length_append] at hlength
    have hrange : ((Text.lines text).drop (r.start - 1).toNat).take r.count.toNat =
        Text.lines (snippet ++ terminator) := by
      rw [hlines, List.append_assoc, List.drop_left' (by omega), List.take_left' (by omega)]
    rw [← Text.dropTerminator_append hcut.terminator, ← Text.flatten_lines (snippet ++ terminator),
      ← hrange]
    exact .full hpos (by omega) (by unfold LineRange.stop; omega)

theorem cuts_iff_isSnippet {text snippet : Text} {r : LineRange} :
    Cuts (Text.lines text) r snippet ↔ IsSnippet text r snippet :=
  ⟨isSnippet_of_cuts, cuts_of_isSnippet⟩

/-! ## One hunk -/

theorem IsPlaced.misfits_iff {r : LineRange} (h : IsPlaced r) (lines : List Text) :
    Misfits lines.length r ↔ Overruns r lines.length := by
  rw [← take?_eq_none_iff_misfits, take?_eq_none_iff h]

/-- What a hunk has to come to in two texts: a report on the old range if that one goes on behind
the last line, or else on the new range if that one does, or else its two snippets. -/
inductive Excerpts (path before after : Text) (h : Hunk) : Except Diagnostic SnippetPair → Prop where
  | old (overruns : Overruns h.old (Text.lines before).length) :
    Excerpts path before after h
      (.error (report path h.header .before h.old (Text.lines before).length))
  | new (fits : ¬ Overruns h.old (Text.lines before).length)
    (overruns : Overruns h.new (Text.lines after).length) :
    Excerpts path before after h
      (.error (report path h.header .after h.new (Text.lines after).length))
  | pair {b a : Text} (old_fits : ¬ Overruns h.old (Text.lines before).length)
    (new_fits : ¬ Overruns h.new (Text.lines after).length) (old : IsSnippet before h.old b)
    (new : IsSnippet after h.new a) : Excerpts path before after h (.ok ⟨b, a⟩)

section

variable {path before after : Text} {h : Hunk} {r r' : Except Diagnostic SnippetPair}

theorem Excerpts.unique (hr : Excerpts path before after h r)
    (hr' : Excerpts path before after h r') : r' = r := by
  cases hr with
  | old overruns =>
    cases hr' with
    | old => rfl
    | new fits => exact absurd overruns fits
    | pair fits => exact absurd overruns fits
  | new fits overruns =>
    cases hr' with
    | old overruns => exact absurd overruns fits
    | new => rfl
    | pair _ fits => exact absurd overruns fits
  | pair old_fits new_fits old new =>
    cases hr' with
    | old overruns => exact absurd overruns old_fits
    | new _ overruns => exact absurd overruns new_fits
    | pair _ _ old' new' =>
      rw [(cuts_of_isSnippet old).unique (cuts_of_isSnippet old'),
        (cuts_of_isSnippet new).unique (cuts_of_isSnippet new')]

/-- Slicing gives nothing but what a hunk has to come to. -/
theorem excerpts_of_sliceHunk (hplaced : ∀ side, IsPlaced (h.range side))
    (hslice : sliceHunk path before after h = .ok r) : Excerpts path before after h r := by
  have hold : IsPlaced h.old := hplaced .before
  have hnew : IsPlaced h.new := hplaced .after
  cases sliceLines_eq_ok_iff.1 hslice with
  | pair old new =>
    refine .pair ?_ ?_ (isSnippet_of_cuts (cuts_of_take? hold.count old))
      (isSnippet_of_cuts (cuts_of_take? hnew.count new))
    · exact mt (hold.misfits_iff _).2 (not_misfits_of_take? old)
    · exact mt (hnew.misfits_iff _).2 (not_misfits_of_take? new)
  | old misfits => exact .old ((hold.misfits_iff _).1 misfits)
  | new fits misfits =>
    exact .new (mt (hold.misfits_iff _).2 fits) ((hnew.misfits_iff _).1 misfits)

/-- There is a result unless the numbers of the report cannot be written. -/
theorem exists_sliceHunk_iff (hplaced : ∀ side, IsPlaced (h.range side)) :
    (∃ r, sliceHunk path before after h = .ok r) ↔
      ¬ IsUnreportable (Text.lines before).length (Text.lines after).length h := by
  unfold sliceHunk
  rw [← not_fails_iff, fails_sliceLines_iff hplaced]

end

/-- Every hunk whose ranges may stand in a header comes to its two snippets or to the report on the
first range that goes on behind the last line, exactly if that report can be written.  The hunks of
a file come to the same, one by one and in order, and pairs of nothing are left out. -/
theorem sliceHunk_excerpts (path before after : Text) :
    (∀ h : Hunk, (∀ side, IsPlaced (h.range side)) →
      ((∃ r, sliceHunk path before after h = .ok r ∧
          ∀ r', Excerpts path before after h r' ↔ r' = r) ↔
        ¬ IsUnreportable (Text.lines before).length (Text.lines after).length h)) ∧
      ∀ hunks : List Hunk, (∀ h ∈ hunks, ∀ side, IsPlaced (h.range side)) →
        ((∃ rs, List.Forall₂ (fun h r => sliceHunk path before after h = .ok r) hunks rs ∧
            sliceFile path before after hunks = .ok ⟨path, (gather rs).1, (gather rs).2⟩) ↔
          ∀ h ∈ hunks,
            ¬ IsUnreportable (Text.lines before).length (Text.lines after).length h) := by
  constructor
  · intro h hplaced
    rw [← exists_sliceHunk_iff hplaced]
    refine exists_congr fun r => and_iff_left_of_imp fun hslice => ?_
    have hr := excerpts_of_sliceHunk hplaced hslice
    intro r'
    constructor
    · exact hr.unique
    · rintro rfl
      exact hr
  · intro hunks hplaced
    constructor
    · rintro ⟨rs, hrs, -⟩ h hh
      obtain ⟨r, -, hr⟩ := exists_of_forall₂ hrs hh
      exact (exists_sliceHunk_iff (hplaced h hh)).1 ⟨r, hr⟩
    · intro hreport
      obtain ⟨rs, hrs⟩ := exists_forall₂ fun h hh =>
        (exists_sliceHunk_iff (hplaced h hh)).2 (hreport h hh)
      refine ⟨rs, hrs, sliceFile_eq_ok_iff.2 ⟨rs, ?_, rfl⟩⟩
      exact hrs.imp fun _ _ hr => sliceLines_eq_ok_iff.1 hr

/-! ### Terminators of every kind

Two carriage returns before a line feed, and one at the end of the text.  One hunk of which both
ranges go on behind the last line, one of which the new one does, and one without a line. -/

namespace Terminated

def before : Text := "a\r\nb\x0c\r\r\nc\r".toList

def after : Text := "x\ny".toList

def hunks : List Hunk :=
  [⟨"@@ -2,2 +2 @@".toList, ⟨2, 2⟩, ⟨2, 1⟩, []⟩, ⟨"@@ -2 +7,0 @@".toList, ⟨2, 1⟩, ⟨7, 0⟩, []⟩,
    ⟨"@@ -3,2 +9 @@".toList, ⟨3, 2⟩, ⟨9, 1⟩, []⟩, ⟨"@@ -0,0 +2,2 @@".toList, ⟨0, 0⟩, ⟨2, 2⟩, []⟩,
    ⟨"@@ -0,0 +0,0 @@".toList, ⟨0, 0⟩, ⟨0, 0⟩, []⟩]

def outcome : Outcome where
  path := "f".toList
  pairs := [⟨"b\x0c\r\r\nc".toList, "y".toList⟩, ⟨"b\x0c\r".toList, []⟩]
  diagnostics :=
    [⟨.parseError, "f".toList, "old range 3-4 exceeds file length (3 lines)".toList,
        some "@@ -3,2 +9 @@".toList⟩,
      ⟨.parseError, "f".toList, "new range 2-3 exceeds file length (2 lines)".toList,
        some "@@ -0,0 +2,2 @@".toList⟩]

theorem isPlaced : ∀ h ∈ hunks, ∀ side, IsPlaced (h.range side) := by
  have hranges : ∀ h ∈ hunks, ((0 ≤ h.old.count ∧ (0 < h.old.count → 1 ≤ h.old.start)) ∧
      0 ≤ h.new.count ∧ (0 < h.new.count → 1 ≤ h.new.start)) := by decide
  intro h hh side
  obtain ⟨hold, hnew⟩ := hranges h hh
  cases side with
  | before => exact ⟨hold.1, hold.2⟩
  | after => exact ⟨hnew.1, hnew.2⟩

theorem not_isUnreportable : ∀ h ∈ hunks,
    ¬ IsUnreportable (Text.lines before).length (Text.lines after).length h := by
  have hstops : ∀ h ∈ hunks, h.old.stop ≤ 9 ∧ h.new.stop ≤ 9 := by decide
  have hlarge : 9 < tooLarge := by decide +kernel
  intro h hh hunreportable
  obtain ⟨hold, hnew⟩ := hstops h hh
  rcases hunreportable with ⟨-, hstop⟩ | ⟨-, -, hstop⟩
  · omega
  · omega

end Terminated

theorem sliceHunk_excerpts_terminated :
    (∀ h ∈ Terminated.hunks, ∀ side, IsPlaced (h.range side)) ∧
      (∀ h ∈ Terminated.hunks, ∃ r,
        sliceHunk "f".toList Terminated.before Terminated.after h = .ok r ∧
          ∀ r', Excerpts "f".toList Terminated.before Terminated.after h r' ↔ r' = r) ∧
      (∃ rs, List.Forall₂ (fun h r =>
          sliceHunk "f".toList Terminated.before Terminated.after h = .ok r) Terminated.hunks rs ∧
        sliceFile "f".toList Terminated.before Terminated.after Terminated.hunks =
          .ok ⟨"f".toList, (gather rs).1, (gather rs).2⟩) ∧
      sliceFile "f".toList Terminated.before Terminated.after Terminated.hunks =
        .ok Terminated.outcome := by
  obtain ⟨hone, hall⟩ := sliceHunk_excerpts "f".toList Terminated.before Terminated.after
  refine ⟨Terminated.isPlaced, ?_, ?_, rfl⟩
  · intro h hh
    exact (hone h (Terminated.isPlaced h hh)).2 (Terminated.not_isUnreportable h hh)
  · exact (hall Terminated.hunks Terminated.isPlaced).2 Terminated.not_isUnreportable

def lateHunk : Hunk where
  header := "@@".toList
  old := ⟨0, 0⟩
  new := ⟨tooLarge - 1, 2⟩
  text := "@@\n+a\n+b\n".toList

theorem not_sliceHunk_excerpts_late :
    (∀ side, IsPlaced (lateHunk.range side)) ∧ Overruns lateHunk.new (Text.lines []).length ∧
      ¬ ∃ r, sliceHunk "f".toList [] [] lateHunk = .ok r := by
  have hlarge := one_lt_tooLarge
  have hplaced : ∀ side, IsPlaced (lateHunk.range side) := by
    intro side
    cases side with
    | before => exact ⟨by decide, by decide⟩
    | after =>
      refine ⟨by decide, fun _ => ?_⟩
      show (1 : Int) ≤ tooLarge - 1
      omega
  have hstop : lateHunk.new.stop = tooLarge := by
    unfold LineRange.stop lateHunk
    dsimp only
    omega
  have hover : Overruns lateHunk.new (Text.lines []).length := by
    refine ⟨by decide, ?_⟩
    rw [hstop]
    show (0 : Int) < tooLarge
    omega
  refine ⟨hplaced, hover, ?_⟩
  rw [exists_sliceHunk_iff hplaced, not_not]
  refine .inr ⟨?_, hover, ?_⟩
  · exact fun hold => absurd hold.1 (by decide)
  · exact Int.le_of_eq hstop.symm

end Snapshot
end ChangePairs
