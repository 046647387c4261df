import ChangePairs.Proofs.Diff.Opening
import ChangePairs.Proofs.Reduction.Hunks
import ChangePairs.Proofs.Snapshot.Slicing

/-!
An account of the hunks of a file.  Every line of a diff that opens a hunk meets one of four fates:
its header is rejected, a range of it does not fit, the hunk is dropped as there is nothing on
either side, or it makes a pair.  `Meets` says which one from the line and the two versions alone,
so no hunk has a say in what becomes of another one.

The main statement, `reduceFile_accounts`, says that the outcome of a file is the list of these
fates, sorted into diagnostics and pairs, and when there is one: the numbers in the report on a
range that does not fit have to be short enough to be written.
-/

namespace ChangePairs
namespace Reduction

open Diff
open Snapshot (Cuts Misfits Slices gather report report?)

inductive Fate where
  | rejected (d : Diagnostic)
  | misfit (d : Diagnostic)
  | dropped
  | pair (p : SnippetPair)
deriving DecidableEq, Repr

namespace Fate

def rejected? : Fate → Option Diagnostic
  | .rejected d => some d
  | _ => none

def misfit? : Fate → Option Diagnostic
  | .misfit d => some d
  | _ => none

def pair? : Fate → Option SnippetPair
  | .pair p => some p
  | _ => none

def isDropped : Fate → Bool
  | .dropped => true
  | _ => false

end Fate

inductive Meets (path : Text) (before after : List Text) (line : Text) : Fate → Prop where
  | rejected {fault : Header.Fault}
    (read : (Header.read (Header.ofLine line)).run = .ok (.error fault)) :
    Meets path before after line
      (.rejected ⟨.parseError, path, fault.message (Header.ofLine line), none⟩)
  | oldMisfit {old new : LineRange}
    (read : (Header.read (Header.ofLine line)).run = .ok (.ok (old, new)))
    (misfits : Misfits before.length old) :
    Meets path before after line
      (.misfit (report path (Header.ofLine line) .before old before.length))
  | newMisfit {old new : LineRange}
    (read : (Header.read (Header.ofLine line)).run = .ok (.ok (old, new)))
    (fits : ¬ Misfits before.length old) (misfits : Misfits after.length new) :
    Meets path before after line
      (.misfit (report path (Header.ofLine line) .after new after.length))
  | dropped {old new : LineRange}
    (read : (Header.read (Header.ofLine line)).run = .ok (.ok (old, new)))
    (nothingBefore : Cuts before old []) (nothingAfter : Cuts after new []) :
    Meets path before after line .dropped
  | pair {old new : LineRange} {b a : Text}
    (read : (Header.read (Header.ofLine line)).run = .ok (.ok (old, new)))
    (textBefore : Cuts before old b) (textAfter : Cuts after new a) (nonempty : b ≠ [] ∨ a ≠ []) :
    Meets path before after line (.pair ⟨b, a⟩)

section

variable {path : Text} {before after : List Text}

/-- The line and the versions leave no choice. -/
theorem Meets.unique {line : Text} {fate fate' : Fate} (h : Meets path before after line fate)
    (h' : Meets path before after line fate') : fate' = fate := by
  cases h with
  | rejected read =>
    cases h' with
    | rejected read' => rw [Except.error.inj (Except.ok.inj (read.symm.trans read'))]
    | oldMisfit read' | newMisfit read' | dropped read' | pair read' =>
      nomatch read.symm.trans read'
  | oldMisfit read misfits =>
    cases h' with
    | rejected read' => nomatch read.symm.trans read'
    | oldMisfit read' => cases read.symm.trans read'; rfl
    | newMisfit read' fits => cases read.symm.trans read'; exact absurd misfits fits
    | dropped read' hb => cases read.symm.trans read'; exact absurd misfits hb.not_misfits
    | pair read' hb => cases read.symm.trans read'; exact absurd misfits hb.not_misfits
  | newMisfit read fits misfits =>
    cases h' with
    | rejected read' => nomatch read.symm.trans read'
    | oldMisfit read' misfits' => cases read.symm.trans read'; exact absurd misfits' fits
    | newMisfit read' => cases read.symm.trans read'; rfl
    | dropped read' _ ha => cases read.symm.trans read'; exact absurd misfits ha.not_misfits
    | pair read' _ ha => cases read.symm.trans read'; exact absurd misfits ha.not_misfits
  | dropped read hb ha =>
    cases h' with
    | rejected read' => nomatch read.symm.trans read'
    | oldMisfit read' misfits => cases read.symm.trans read'; exact absurd misfits hb.not_misfits
    | newMisfit read' _ misfits => cases read.symm.trans read'; exact absurd misfits ha.not_misfits
    | dropped => rfl
    | pair read' hb' ha' nonempty =>
      cases read.symm.trans read'
      rw [hb.unique hb', ha.unique ha'] at nonempty
      simp at nonempty
  | pair read hb ha nonempty =>
    cases h' with
    | rejected read' => nomatch read.symm.trans read'
    | oldMisfit read' misfits => cases read.symm.trans read'; exact absurd misfits hb.not_misfits
    | newMisfit read' _ misfits => cases read.symm.trans read'; exact absurd misfits ha.not_misfits
    | dropped read' hb' ha' =>
      cases read.symm.trans read'
      rw [← hb.unique hb', ← ha.unique ha'] at nonempty
      simp at nonempty
    | pair read' hb' ha' =>
      cases read.symm.trans read'
      rw [hb.unique hb', ha.unique ha']

/-! ## One line -/

/-- A hunk that is sliced gives its line the fate that puts what it was sliced into where it
belongs. -/
theorem exists_meets_of_slices {line : Text} {h : Hunk} {result : Except Diagnostic SnippetPair}
    (hopens : OpensTo line (.ok h)) (hslices : Slices path before after h result) :
    ∃ fate, Meets path before after line fate ∧ fate.rejected? = none ∧
      ∀ results fates,
        gather results = (fates.filterMap Fate.pair?, fates.filterMap Fate.misfit?) →
        gather (result :: results) =
          ((fate :: fates).filterMap Fate.pair?, (fate :: fates).filterMap Fate.misfit?) := by
  cases hopens with
  | hunk header read =>
    obtain ⟨hold, hnew⟩ := Header.isStated_of_read read
    cases hslices with
    | old misfits =>
      refine ⟨_, .oldMisfit read misfits, rfl, ?_⟩
      intro results fates hrest
      rw [Snapshot.gather_cons, hrest, header]
      rfl
    | new fits misfits =>
      refine ⟨_, .newMisfit read fits misfits, rfl, ?_⟩
      intro results fates hrest
      rw [Snapshot.gather_cons, hrest, header]
      rfl
    | @pair b a hb ha =>
      have hb := Snapshot.cuts_of_take? hold.count_nonneg hb
      have ha := Snapshot.cuts_of_take? hnew.count_nonneg ha
      by_cases hempty : b = [] ∧ a = []
      · obtain ⟨rfl, rfl⟩ := hempty
        refine ⟨_, .dropped read hb ha, rfl, ?_⟩
        intro results fates hrest
        rw [Snapshot.gather_cons, hrest]
        rfl
      · have hnonempty : b ≠ [] ∨ a ≠ [] := by
          rw [← not_and_or]
          exact hempty
        have hkept : (⟨b, a⟩ : SnippetPair).isEmpty = false := by
          simpa [SnippetPair.isEmpty, or_iff_not_imp_left] using hempty
        refine ⟨_, .pair read hb ha hnonempty, rfl, ?_⟩
        intro results fates hrest
        rw [Snapshot.gather_cons, hrest]
        dsimp only
        rw [hkept]
        rfl

/-! ## All lines -/

theorem exists_fates {lines : List Text} {results : List (Except Rejection Hunk)}
    (hopens : List.Forall₂ OpensTo lines results)
    {slices : List (Except Diagnostic SnippetPair)}
    (hslices : List.Forall₂ (Slices path before after) (results.filterMap Except.toOption) slices) :
    ∃ fates, List.Forall₂ (Meets path before after) lines fates ∧
      (results.filterMap rejection?).map (Diagnostic.ofRejection path) =
        fates.filterMap Fate.rejected? ∧
      gather slices = (fates.filterMap Fate.pair?, fates.filterMap Fate.misfit?) := by
  -- Only the lines that are read have a slice, so the slices are used up more slowly.
  induction hopens generalizing slices with
  | nil =>
    cases hslices
    exact ⟨[], .nil, rfl, rfl⟩
  | @cons line r lines results hopen _ ih =>
    cases r with
    | error rejection =>
      obtain ⟨fates, hmeets, hrejected, hgather⟩ := ih hslices
      cases hopen with
      | rejection header read =>
        refine ⟨_ :: fates, .cons (.rejected read) hmeets, ?_, hgather⟩
        show Diagnostic.ofRejection path rejection :: _ = _ :: _
        rw [hrejected, ← header]
        rfl
    | ok h =>
      change List.Forall₂ _ (h :: results.filterMap Except.toOption) slices at hslices
      cases hslices with
      | @cons _ s _ slices hslice hslices =>
        obtain ⟨fates, hmeets, hrejected, hgather⟩ := ih hslices
        obtain ⟨fate, hmeet, hnone, hstep⟩ := exists_meets_of_slices hopen hslice
        refine ⟨fate :: fates, .cons hmeet hmeets, ?_, hstep _ _ hgather⟩
        show (results.filterMap rejection?).map (Diagnostic.ofRejection path) = _
        rw [hrejected, List.filterMap_cons, hnone]

theorem length_fates (fates : List Fate) :
    fates.length = (fates.filterMap Fate.rejected?).length +
      (fates.filterMap Fate.misfit?).length + (fates.filter Fate.isDropped).length +
      (fates.filterMap Fate.pair?).length := by
  induction fates with
  | nil => rfl
  | cons fate fates ih =>
    cases fate <;>
      simp only [List.length_cons, List.filterMap_cons, List.filter_cons, Fate.rejected?,
        Fate.misfit?, Fate.pair?, Fate.isDropped, if_true, Bool.false_eq_true, if_false, ih] <;>
      omega

end

/-! ## The account -/

/-- The outcome of a file as the list of what becomes of the lines that open a hunk: one fate for
each of them, rejected headers reported before ranges that do not fit, and pairs apart, all in the
order of the diff. -/
structure Accounts (path before after diff : Text) (outcome : Outcome) (fates : List Fate) :
    Prop where
  each : List.Forall₂ (Meets path (Text.lines before) (Text.lines after))
    ((Text.lines diff).filter Header.opens) fates
  alone : ∀ line fate fate', Meets path (Text.lines before) (Text.lines after) line fate →
    Meets path (Text.lines before) (Text.lines after) line fate' → fate' = fate
  path : outcome.path = path
  diagnostics : outcome.diagnostics =
    fates.filterMap Fate.rejected? ++ fates.filterMap Fate.misfit?
  pairs : outcome.pairs = fates.filterMap Fate.pair?
  count : ((Text.lines diff).filter Header.opens).length =
    outcome.diagnostics.length + (fates.filter Fate.isDropped).length + outcome.pairs.length

section

variable {source : FileSource Id} {plan : Plan} {path : Path} {before after diff : Text}
  {parsed : Diff.Parsed}

theorem exists_accounts {outcome : Outcome} (hparse : Diff.parse diff = .ok parsed)
    (houtcome : ((Snapshot.sliceFile path before after parsed.hunks).map fun outcome =>
      { outcome with
        diagnostics := parsed.rejections.map (Diagnostic.ofRejection path) ++
          outcome.diagnostics }) = .ok outcome) :
    ∃ fates, Accounts path before after diff outcome fates := by
  obtain ⟨results, hopens, rfl⟩ := exists_opensTo hparse
  cases hsliced : Snapshot.sliceFile path before after (Parsed.ofResults results).hunks with
  | error e =>
    rw [hsliced] at houtcome
    cases houtcome
  | ok sliced =>
    obtain ⟨slices, hslices, rfl⟩ := Snapshot.sliceFile_eq_ok_iff.1 hsliced
    obtain ⟨fates, hmeets, hrejected, hgather⟩ := exists_fates hopens hslices
    rw [hsliced, hgather] at houtcome
    obtain rfl := Except.ok.inj houtcome
    have hcount := length_fates fates
    have hlength := hmeets.length_eq
    have hdiagnostics : (results.filterMap rejection?).map (Diagnostic.ofRejection path) ++
        fates.filterMap Fate.misfit? =
          fates.filterMap Fate.rejected? ++ fates.filterMap Fate.misfit? := by
      rw [hrejected]
    refine ⟨fates, hmeets, fun _ _ _ h h' => h.unique h', rfl, hdiagnostics, rfl, ?_⟩
    show _ = ((results.filterMap rejection?).map (Diagnostic.ofRejection path) ++
      fates.filterMap Fate.misfit?).length + (fates.filter Fate.isDropped).length +
        (fates.filterMap Fate.pair?).length
    rw [hdiagnostics, List.length_append]
    omega

theorem exists_reduceFile_iff (hplan : plan.strategy = .hunks)
    (hdiff : (source.diff path).run = .text diff) (hparse : Diff.parse diff = .ok parsed)
    (hbefore : (source.version .before path).run = .text before)
    (hafter : (source.version .after path).run = .text after) :
    (∃ outcome, (reduceFile source plan path).run = .ok outcome) ↔
      ∀ h ∈ parsed.hunks,
        ¬ Snapshot.IsUnreportable (Text.lines before).length (Text.lines after).length h := by
  have hplaced := Snapshot.isPlaced_of_mem_hunks hparse
  rw [reduceFile_hunks hplan, byHunks_of_texts hdiff hparse hbefore hafter, Id.run_pure,
    ← not_fails_iff, fails_map_iff, Snapshot.fails_sliceFile_iff hplaced]
  simp

/-- Every line that opens a hunk is accounted for once, and there is an account unless the report
on a range that does not fit holds a number that cannot be written. -/
theorem reduceFile_accounts (hplan : plan.strategy = .hunks)
    (hdiff : (source.diff path).run = .text diff) (hparse : Diff.parse diff = .ok parsed)
    (hbefore : (source.version .before path).run = .text before)
    (hafter : (source.version .after path).run = .text after) :
    ((∃ outcome, (reduceFile source plan path).run = .ok outcome) ↔
      ∀ h ∈ parsed.hunks,
        ¬ Snapshot.IsUnreportable (Text.lines before).length (Text.lines after).length h) ∧
    ∀ outcome, (reduceFile source plan path).run = .ok outcome →
      ∃ fates, Accounts path before after diff outcome fates := by
  refine ⟨exists_reduceFile_iff hplan hdiff hparse hbefore hafter, fun outcome houtcome => ?_⟩
  rw [reduceFile_hunks hplan, byHunks_of_texts hdiff hparse hbefore hafter,
    Id.run_pure] at houtcome
  exact exists_accounts hparse houtcome

end

/-! ## Hunks of every fate

A bad header stands between good ones, one range goes on behind the last line, one hunk has no line
on either side, and one makes a pair. -/

namespace Mixed

def before : Text := "a\r\nb\nc".toList

def after : Text := "a\nB\r\n\nc".toList

def diff : Text :=
  ("--- f\n+++ f\n@@ -9 +1 @@ g\n-b\n@@ -x +1 @@\n-q\n@@ -2 +2,2 @@\n-b\n+B\r\n+\n" ++
    "@@ -0,0 +3 @@\n+\n@@ -3,2 +4 @@").toList

def outcome : Outcome where
  path := "f".toList
  pairs := [⟨"b".toList, "B\r\n".toList⟩]
  diagnostics :=
    [⟨.parseError, "f".toList,
        "Non-numeric range 'x' in hunk header '@@ -x +1 @@'".toList, none⟩,
      ⟨.parseError, "f".toList, "old range 9-9 exceeds file length (3 lines)".toList,
        some "@@ -9 +1 @@ g".toList⟩,
      ⟨.parseError, "f".toList, "old range 3-4 exceeds file length (3 lines)".toList,
        some "@@ -3,2 +4 @@".toList⟩]

end Mixed

theorem reduceFile_accounts_mixed :
    (∃ parsed, Diff.parse Mixed.diff = .ok parsed) ∧
      (reduceFile (FileSource.ofTexts Mixed.before Mixed.after Mixed.diff) ⟨.hunks, .position, 4⟩
        "f".toList).run = .ok Mixed.outcome ∧
      ∃ fates, Accounts "f".toList Mixed.before Mixed.after Mixed.diff Mixed.outcome fates := by
  have hparse : ∃ parsed, Diff.parse Mixed.diff = .ok parsed := ⟨_, rfl⟩
  have houtcome : (reduceFile (FileSource.ofTexts Mixed.before Mixed.after Mixed.diff)
      ⟨.hunks, .position, 4⟩ "f".toList).run = .ok Mixed.outcome := by rfl
  refine ⟨hparse, houtcome, ?_⟩
  obtain ⟨parsed, hparse⟩ := hparse
  exact (reduceFile_accounts rfl rfl hparse rfl rfl).2 _ houtcome

/-! ## A line whose number cannot be written

The largest number that can be read, as the start of a range of two lines. -/

namespace Unwritable

def start : Header.Numeral where
  digits := List.replicate digitLimit '9'
  isNumber := by
    refine ⟨List.cons_ne_nil _ _, fun c hc => ?_⟩
    rw [List.eq_of_mem_replicate hc]
    rfl
  short := Nat.le_of_eq List.length_replicate

def old : Header.WrittenRange := ⟨start, some (.lastDigit 2)⟩

def new : Header.WrittenRange := ⟨.lastDigit 1, none⟩

def diff : Text := Header.written old new [] ++ ['\n'] ++ "-a\n+b\n".toList

theorem value_start : start.value + 1 = tooLarge := by
  have hvalue : start.value = numberOfDigits (List.replicate digitLimit 9) := by
    have hdigit : '9'.toNat - '0'.toNat = 9 := rfl
    unfold Header.Numeral.value start
    rw [List.map_replicate, hdigit]
  unfold tooLarge
  rw [hvalue, numberOfDigits_nines]

theorem opening_lines : (Text.lines diff).filter Header.opens =
    [Header.written old new [] ++ ['\n']] := by
  have hlines : Text.lines diff =
      (Header.written old new [] ++ ['\n']) :: Text.lines "-a\n+b\n".toList :=
    Text.lines_feed (Header.not_mem_written rfl (by decide) List.not_mem_nil) _
  have hopens : Header.opens (Header.written old new [] ++ ['\n']) = true := by
    rw [Header.written_append]
    exact Header.opens_written old new _
  rw [hlines, List.filter_cons, if_pos hopens]
  rfl

theorem read_header :
    (Header.read (Header.ofLine (Header.written old new [] ++ ['\n']))).run =
      .ok (.ok (old.range, new.range)) := by
  have hstart : 1 ≤ old.range.start := by
    have hvalue := value_start
    have hlarge := one_lt_tooLarge
    show 1 ≤ (start.value : Int)
    omega
  rw [← Header.ofLine_chompLine, Text.chompLine_feed, Header.ofLine_written,
    Header.read_written (fun _ => hstart) (fun _ => by decide)]
  rfl

theorem exists_parse : ∃ parsed, Diff.parse diff = .ok parsed ∧
    ∃ h ∈ parsed.hunks, Snapshot.IsUnreportable 1 1 h := by
  have hread : List.Forall₂ (fun l r => (Header.read (Header.ofLine l)).run = .ok (.ok r))
      ((Text.lines diff).filter Header.opens) [(old.range, new.range)] := by
    rw [opening_lines]
    exact .cons read_header .nil
  obtain ⟨hunks, hparse, hranges⟩ := parse_of_read hread
  obtain ⟨h, rfl⟩ : ∃ h, hunks = [h] := by
    rw [← List.length_eq_one_iff, ← List.length_map (fun p : Hunk => (p.old, p.new)), hranges]
    rfl
  have hold : h.old = ⟨start.value, 2⟩ := congrArg Prod.fst (List.cons.inj hranges).1
  have hvalue := value_start
  have hlarge := one_lt_tooLarge
  refine ⟨_, hparse, h, List.mem_singleton.2 rfl, .inl ?_⟩
  rw [hold]
  unfold Snapshot.Overruns LineRange.stop
  refine ⟨⟨by decide, ?_⟩, ?_⟩
  · dsimp only
    omega
  · dsimp only
    omega

end Unwritable

/-- Its report cannot be made, and with it goes the account of the whole file. -/
theorem not_reduceFile_unwritable :
    (∃ parsed, Diff.parse Unwritable.diff = .ok parsed) ∧
      ¬ ∃ outcome,
        (reduceFile (FileSource.ofTexts "a\n".toList "b\n".toList Unwritable.diff)
          ⟨.hunks, .position, 4⟩ "a.ts".toList).run = .ok outcome := by
  obtain ⟨parsed, hparse, h, hh, hunreportable⟩ := Unwritable.exists_parse
  refine ⟨⟨parsed, hparse⟩, ?_⟩
  rw [exists_reduceFile_iff rfl rfl hparse rfl rfl]
  intro hall
  exact hall h hh hunreportable

end Reduction
end ChangePairs
