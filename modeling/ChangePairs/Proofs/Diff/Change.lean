import ChangePairs.Proofs.Diff.Numbering
import ChangePairs.Proofs.Pairing

/-!
One changed line of a unified diff.  A body line that is deleted or added has the number that the
lines of its side before it count up to.  The text of that side has the line at that number
(`UnifiedHunk.Changes.exists_line`), and reading the diff gives the line its entry
(`ofHunks_changes`) and no other line one (`exists_changes_of_mem_ofHunks`).
-/

namespace ChangePairs
namespace Diff

/-- A change of the given side: a deletion before, an addition after. -/
def LineKind.ofChange : Side → LineKind
  | .before => .deleted
  | .after => .added

/-- The hunk deletes or adds the line of a side that has the given number and reads `line`. -/
def UnifiedHunk.Changes (h : UnifiedHunk) (side : Side) (number : Int) (line : Text) : Prop :=
  ∃ front back, h.body = front ++ ⟨.ofChange side, line⟩ :: back ∧
    number = (h.range side).start + (front.filterMap (BodyLine.on? side)).length

theorem on?_ofChange (side : Side) (line : Text) :
    BodyLine.on? side ⟨.ofChange side, line⟩ = some line := by
  cases side <;> rfl

theorem change?_ofChange (side : Side) (line : Text) :
    BodyLine.change? ⟨.ofChange side, line⟩ = some (side, Text.trim line) := by
  cases side <;> rfl

theorem eq_ofChange_of_change? {l : BodyLine} {side : Side} {content : Text}
    (h : l.change? = some (side, content)) :
    ∃ line, l = ⟨.ofChange side, line⟩ ∧ content = Text.trim line := by
  obtain ⟨kind, line⟩ := l
  cases kind with
  | context | note => simp [BodyLine.change?] at h
  | deleted | added =>
    simp only [BodyLine.change?, Option.some.injEq, Prod.mk.injEq] at h
    obtain ⟨rfl, rfl⟩ := h
    exact ⟨line, rfl, rfl⟩

theorem UnifiedHunk.Changes.exists_line {before after : Text} {h : UnifiedHunk} {side : Side}
    {number : Int} {line : Text} (hfits : h.Fits before after)
    (hchange : h.Changes side number line) :
    ∃ k : Nat, number = k + 1 ∧ (Text.bareLines (side.pick before after))[k]? = some line := by
  obtain ⟨front, back, hbody, hnumber⟩ := hchange
  have hline : (h.sideLines side)[(front.filterMap (BodyLine.on? side)).length]? = some line := by
    unfold UnifiedHunk.sideLines
    rw [hbody, List.filterMap_append, List.filterMap_cons, on?_ofChange]
    simp
  obtain ⟨k, hk, hfile, -⟩ := (hfits side).getElem? hline
  exact ⟨k, by omega, hfile⟩

open ChangedLine (ofBody)

theorem mem_ofBody (old new : Int) (side : Side) (line : Text) (front back : List BodyLine) :
    (⟨side, Text.trim line,
        side.pick old new + (front.filterMap (BodyLine.on? side)).length⟩ : ChangedLine) ∈
      ofBody old new ((front ++ ⟨.ofChange side, line⟩ :: back).map BodyLine.text) := by
  induction front generalizing old new with
  | nil =>
    rw [List.nil_append, List.map_cons, ofBody_cons, change?_ofChange]
    simp
  | cons l front ih =>
    rw [List.cons_append, List.map_cons, ofBody_cons]
    refine List.mem_append_right _ ?_
    have hentry := ih (old + l.step .before) (new + l.step .after)
    rw [BodyLine.pick_step] at hentry
    -- The lines before the change count one more if this one belongs to the side.
    have hcount : side.pick old new + l.step side + (front.filterMap (BodyLine.on? side)).length =
        side.pick old new + ((l :: front).filterMap (BodyLine.on? side)).length := by
      rw [List.filterMap_cons]
      unfold BodyLine.step
      cases l.on? side with
      | none => simp
      | some other =>
        simp
        omega
    rwa [hcount] at hentry

/-- Each line that a unified diff changes is among the changed lines that are read. -/
theorem ofHunks_changes {hunks : List UnifiedHunk} {ps : List Hunk}
    (hreads : List.Forall₂ Reads hunks ps) {h : UnifiedHunk} (hh : h ∈ hunks) {side : Side}
    {number : Int} {line : Text} (hchange : h.Changes side number line) :
    ⟨side, Text.trim line, number⟩ ∈ ChangedLine.ofHunks ps := by
  obtain ⟨p, hp, hread⟩ := exists_of_forall₂ hreads hh
  obtain ⟨front, back, hbody, rfl⟩ := hchange
  refine List.mem_flatMap.2 ⟨p, hp, ?_⟩
  rw [hread.ofHunk_eq, hbody]
  have hentry := mem_ofBody (h.range .before).start (h.range .after).start side line front back
  rwa [Side.pick_apply fun side => (h.range side).start] at hentry

/-- Each changed line that is read is one that the diff deletes or adds. -/
theorem exists_change_of_mem_ofBody {old new : Int} {body : List BodyLine} {e : ChangedLine}
    (h : e ∈ ofBody old new (body.map BodyLine.text)) :
    ∃ front line back, body = front ++ ⟨.ofChange e.side, line⟩ :: back ∧
      e.content = Text.trim line ∧
      e.number = e.side.pick old new + (front.filterMap (BodyLine.on? e.side)).length := by
  induction body generalizing old new with
  | nil => simp [ofBody] at h
  | cons l body ih =>
    rw [List.map_cons, ofBody_cons, List.mem_append] at h
    rcases h with h | h
    · obtain ⟨⟨side, content⟩, hchange, rfl⟩ := Option.map_eq_some_iff.1 (Option.mem_toList.1 h)
      obtain ⟨line, rfl, rfl⟩ := eq_ofChange_of_change? hchange
      exact ⟨[], line, body, rfl, rfl, by simp⟩
    · obtain ⟨front, line, back, rfl, hcontent, hnumber⟩ := ih h
      refine ⟨l :: front, line, back, rfl, hcontent, ?_⟩
      rw [hnumber, BodyLine.pick_step, List.filterMap_cons]
      unfold BodyLine.step
      cases l.on? e.side with
      | none => simp
      | some other =>
        simp
        omega

theorem exists_changes_of_mem_ofHunks {hunks : List UnifiedHunk} {ps : List Hunk}
    (hreads : List.Forall₂ Reads hunks ps) {e : ChangedLine} (he : e ∈ ChangedLine.ofHunks ps) :
    ∃ h ∈ hunks, ∃ line, h.Changes e.side e.number line ∧ e.content = Text.trim line := by
  obtain ⟨p, hp, he⟩ := List.mem_flatMap.1 he
  obtain ⟨h, hh, hread⟩ := exists_of_forall₂ hreads.flip hp
  rw [hread.ofHunk_eq] at he
  obtain ⟨front, line, back, hbody, hcontent, hnumber⟩ := exists_change_of_mem_ofBody he
  rw [Side.pick_apply fun side => (h.range side).start] at hnumber
  exact ⟨h, hh, line, ⟨front, back, hbody, hnumber⟩, hcontent⟩

end Diff
end ChangePairs
