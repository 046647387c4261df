import ChangePairs.Proofs.Correlation
import ChangePairs.Proofs.Diff.Numbering
import ChangePairs.Proofs.Pairing

/-!
Which differences between two lists of hunks make no difference to the statements that are found.
The hunks are seen through the statements that their changed lines touch and through nothing else
(`sameReduction_of_touches`), so two lists of hunks count as one if they touch the same statements.

What the statements do not see is said by two theorems.  `sameReduction_of_agree`: context, notes,
fillers and the blanks around a line, and by position all of the line but its having a meaning.
`sameReduction_of_sameHunks`: the order of the hunks and how often one is listed, and by content
also where the changed lines stand.
-/

namespace ChangePairs

open Diff (BodyLine LineKind)

/-! ## What the hunks are seen through -/

theorem Candidates.texts_congr (statements : List Statement) {is js : List Int}
    (h : ∀ i, i ∈ is ↔ i ∈ js) : texts statements is = texts statements js := by
  have hcontains : ∀ i, is.contains i = js.contains i := by
    intro i
    rw [Bool.eq_iff_iff, List.contains_iff_mem, List.contains_iff_mem]
    exact h i
  unfold texts
  simp only [hcontains]

namespace Correlation

/-- No statements tell the two lists of hunks apart: the candidates are the same in the same order,
and two diffs of these hunks give the same outcome. -/
structure SameReduction (m : Matching) (hunks hunks' : List Hunk) : Prop where
  collect : ∀ before after,
    Candidates.collect m hunks before after = Candidates.collect m hunks' before after
  correlate : ∀ path diff diff' before? after?, Diff.parse diff = .ok ⟨hunks, []⟩ →
    Diff.parse diff' = .ok ⟨hunks', []⟩ →
      correlate m path diff before? after? = correlate m path diff' before? after?

variable {m : Matching} {hunks hunks' : List Hunk}

theorem sameReduction_of_touches
    (h : ∀ side s, m.Touches side (ChangedLine.ofHunks hunks) s ↔
      m.Touches side (ChangedLine.ofHunks hunks') s) : SameReduction m hunks hunks' := by
  have hselected : ∀ side statements i,
      i ∈ Candidates.selected m side (ChangedLine.ofHunks hunks) statements ↔
        i ∈ Candidates.selected m side (ChangedLine.ofHunks hunks') statements := by
    intro side statements i
    simp only [Candidates.mem_selected, h]
  have hcollect : ∀ before after,
      Candidates.collect m hunks before after = Candidates.collect m hunks' before after := by
    intro before after
    have hbefore := Candidates.texts_congr before (hselected .before before)
    have hafter := Candidates.texts_congr after (hselected .after after)
    unfold Candidates.collect
    dsimp only
    rw [hbefore, hafter]
  refine ⟨hcollect, ?_⟩
  intro path diff diff' before? after? hparse hparse'
  -- The diffs are read only if there are statements on both sides.
  cases before? with
  | none => rfl
  | some before =>
    cases after? with
    | none => rfl
    | some after =>
      have hread : ∀ {diff hunks}, Diff.parse diff = .ok ⟨hunks, []⟩ →
          Diff.rejectedHeaders diff = [] := fun hparse => (Diff.rejections_of_parse hparse).symm
      rw [correlate_of_read hparse (hread hparse), correlate_of_read hparse' (hread hparse'),
        hcollect]

/-! ## Lines that mean the same -/

/-- Two contents that read the same, or hold nothing but fillers both of them. -/
def SameMeaning (c d : Text) : Prop :=
  c = d ∨ ChangedLine.isMeaningful c = false ∧ ChangedLine.isMeaningful d = false

/-- Two contents of which both have a meaning or neither has. -/
def SameWeight (c d : Text) : Prop := ChangedLine.isMeaningful c = ChangedLine.isMeaningful d

/-- Two body lines of one kind.  If they are changes, their contents agree. -/
structure LinesAgree (agree : Text → Text → Prop) (a b : Text) : Prop where
  kind : LineKind.ofText a = LineKind.ofText b
  content : LineKind.ofText a = .deleted ∨ LineKind.ofText a = .added →
    agree (Text.trim (a.drop 1)) (Text.trim (b.drop 1))

/-- Two hunks that start at the same lines and of which the body lines agree one by one. -/
structure HunksAgree (agree : Text → Text → Prop) (h k : Hunk) : Prop where
  old : h.old.start = k.old.start
  new : h.new.start = k.new.start
  body : List.Forall₂ (LinesAgree agree) h.bodyLines k.bodyLines

instance : DecidableRel SameMeaning := fun c d => inferInstanceAs (Decidable (c = d ∨
  ChangedLine.isMeaningful c = false ∧ ChangedLine.isMeaningful d = false))

instance : DecidableRel SameWeight := fun c d =>
  inferInstanceAs (Decidable (ChangedLine.isMeaningful c = ChangedLine.isMeaningful d))

instance {agree : Text → Text → Prop} [DecidableRel agree] : DecidableRel (LinesAgree agree) :=
  fun a b => decidable_of_iff (LineKind.ofText a = LineKind.ofText b ∧
      (LineKind.ofText a = .deleted ∨ LineKind.ofText a = .added →
        agree (Text.trim (a.drop 1)) (Text.trim (b.drop 1))))
    ⟨fun h => ⟨h.1, h.2⟩, fun h => ⟨h.kind, h.content⟩⟩

/-- Two changed lines of one side with one number, of which the contents agree. -/
structure EntriesAgree (agree : Text → Text → Prop) (e f : ChangedLine) : Prop where
  side : e.side = f.side
  number : e.number = f.number
  content : agree e.content f.content

section

variable {agree : Text → Text → Prop}

/-- Lines of one kind move the counters alike, so what follows them is numbered alike. -/
theorem forall₂_ofBody {as bs : List Text} (h : List.Forall₂ (LinesAgree agree) as bs)
    (old new : Int) :
    List.Forall₂ (EntriesAgree agree) (ChangedLine.ofBody old new as)
      (ChangedLine.ofBody old new bs) := by
  induction h generalizing old new with
  | nil => exact .nil
  | @cons a b as bs hab _ ih =>
    have hstep : ∀ side, (BodyLine.ofText a).step side = (BodyLine.ofText b).step side := by
      intro side
      unfold BodyLine.step BodyLine.on? BodyLine.ofText
      rw [hab.kind]
      cases LineKind.ofText b <;> cases side <;> rfl
    rw [Diff.ofBody_cons_ofText, Diff.ofBody_cons_ofText, hstep, hstep]
    refine List.rel_append ?_ (ih _ _)
    have hcontent := hab.content
    unfold BodyLine.change? BodyLine.ofText
    rw [← hab.kind]
    cases hkind : LineKind.ofText a with
    | context | note => exact .nil
    | deleted => exact .cons ⟨rfl, rfl, hcontent (.inl hkind)⟩ .nil
    | added => exact .cons ⟨rfl, rfl, hcontent (.inr hkind)⟩ .nil

theorem forall₂_ofHunks (h : List.Forall₂ (HunksAgree agree) hunks hunks') :
    List.Forall₂ (EntriesAgree agree) (ChangedLine.ofHunks hunks)
      (ChangedLine.ofHunks hunks') := by
  refine List.rel_flatMap h ?_
  intro h k hhk
  unfold ChangedLine.ofHunk
  rw [hhk.old, hhk.new]
  exact forall₂_ofBody hhk.body _ _

end

/-- Changes that agree in what a matching goes by touch the same statements. -/
theorem touches_of_agree {agree : Text → Text → Prop} {lines lines' : List ChangedLine}
    (h : List.Forall₂ (EntriesAgree agree) lines lines') {s : Statement}
    (hselects : ∀ e f, EntriesAgree agree e f →
      (ChangedLine.isMeaningful e.content = true ∧ m.Selects e s ↔
        ChangedLine.isMeaningful f.content = true ∧ m.Selects f s)) (side : Side) :
    m.Touches side lines s ↔ m.Touches side lines' s := by
  refine exists_mem_congr (h.imp fun e f hef => ?_)
  rw [hef.side]
  exact and_congr_right fun _ => hselects e f hef

theorem selects_of_sameMeaning {e f : ChangedLine} (h : EntriesAgree SameMeaning e f)
    (s : Statement) :
    ChangedLine.isMeaningful e.content = true ∧ m.Selects e s ↔
      ChangedLine.isMeaningful f.content = true ∧ m.Selects f s := by
  rcases h.content with heq | ⟨he, hf⟩
  · obtain rfl : e = f := by
      obtain ⟨side, content, number⟩ := e
      obtain ⟨side', content', number'⟩ := f
      obtain rfl : side = side' := h.side
      obtain rfl : number = number' := h.number
      obtain rfl : content = content' := heq
      rfl
    exact Iff.rfl
  · simp [he, hf]

theorem selects_of_sameWeight {e f : ChangedLine} (h : EntriesAgree SameWeight e f)
    (s : Statement) :
    ChangedLine.isMeaningful e.content = true ∧ Matching.position.Selects e s ↔
      ChangedLine.isMeaningful f.content = true ∧ Matching.position.Selects f s := by
  have hweight : ChangedLine.isMeaningful e.content = ChangedLine.isMeaningful f.content :=
    h.content
  show _ ∧ (s.firstLine ≤ e.number ∧ e.number ≤ s.lastLine) ↔
    _ ∧ (s.firstLine ≤ f.number ∧ f.number ≤ s.lastLine)
  rw [hweight, h.number]

/-- Hunks whose lines are of the same kinds, start at the same lines and mean the same are not told
apart.  By position it is enough that the same changed lines have a meaning. -/
theorem sameReduction_of_agree (hunks hunks' : List Hunk) :
    (List.Forall₂ (HunksAgree SameMeaning) hunks hunks' →
      ∀ m, SameReduction m hunks hunks') ∧
      (List.Forall₂ (HunksAgree SameWeight) hunks hunks' →
        SameReduction .position hunks hunks') := by
  constructor
  · intro h m
    refine sameReduction_of_touches fun side s => ?_
    exact touches_of_agree (forall₂_ofHunks h) (fun e f hef => selects_of_sameMeaning hef s) side
  · intro h
    refine sameReduction_of_touches fun side s => ?_
    exact touches_of_agree (forall₂_ofHunks h) (fun e f hef => selects_of_sameWeight hef s) side

/-! ### One change in three dresses

The second hunk states other counts, has other context and other blanks, and puts another filler in
the place of the first one.  The third one changes other lines at the same places. -/

namespace Dressed

def plain : Hunk where
  header := "@@ -4,3 +4,2 @@".toList
  old := ⟨4, 3⟩
  new := ⟨4, 2⟩
  text := "@@ -4,3 +4,2 @@\n a\n-  x = 1;\n-)\n+x = 2;\n\\ No newline\n".toList

def reformatted : Hunk where
  header := "@@ -4 +4,0 @@ f".toList
  old := ⟨4, 1⟩
  new := ⟨4, 0⟩
  text := "@@ -4 +4,0 @@ f\n\n-x = 1;\t\n- \x7d;\n+ x = 2;\r\n\\".toList

def rewritten : Hunk where
  header := []
  old := ⟨4, 0⟩
  new := ⟨4, 0⟩
  text := "\nb\n---- y\n-\n+@@\n\\\n".toList

def before : List Statement :=
  [⟨0, [], "a\n".toList, 1, 4⟩, ⟨1, [], "x = 1;\n)".toList, 5, 6⟩]

def after : List Statement := [⟨0, [], "a\n".toList, 1, 4⟩, ⟨1, [], "x = 2;".toList, 5, 5⟩]

def found : Candidates := ⟨["x = 1;\n)".toList], ["x = 2;".toList]⟩

def outcome : Outcome := ⟨"a.ts".toList, [⟨"x = 1;\n)".toList, "x = 2;".toList⟩], []⟩

end Dressed

/-- All three find the same statements, and the two of which a diff can be made the same pair. -/
theorem sameReduction_of_agree_dressed :
    List.Forall₂ (HunksAgree SameMeaning) [Dressed.plain] [Dressed.reformatted] ∧
      (∀ m, SameReduction m [Dressed.plain] [Dressed.reformatted]) ∧
      (∀ m, Candidates.collect m [Dressed.plain] Dressed.before Dressed.after = Dressed.found ∧
        Candidates.collect m [Dressed.reformatted] Dressed.before Dressed.after = Dressed.found ∧
        correlate m "a.ts".toList Dressed.plain.text (some Dressed.before) (some Dressed.after) =
          .ok Dressed.outcome ∧
        correlate m "a.ts".toList Dressed.reformatted.text (some Dressed.before)
          (some Dressed.after) = .ok Dressed.outcome) ∧
      List.Forall₂ (HunksAgree SameWeight) [Dressed.plain] [Dressed.rewritten] ∧
      SameReduction .position [Dressed.plain] [Dressed.rewritten] ∧
      Candidates.collect .position [Dressed.rewritten] Dressed.before Dressed.after =
        Dressed.found := by
  have hmeaning : List.Forall₂ (HunksAgree SameMeaning) [Dressed.plain] [Dressed.reformatted] :=
    .cons ⟨rfl, rfl, by decide +kernel⟩ .nil
  have hweight : List.Forall₂ (HunksAgree SameWeight) [Dressed.plain] [Dressed.rewritten] :=
    .cons ⟨rfl, rfl, by decide +kernel⟩ .nil
  have hsame := (sameReduction_of_agree _ _).1 hmeaning
  have hplaced := (sameReduction_of_agree _ _).2 hweight
  have hfound : ∀ m, Candidates.collect m [Dressed.plain] Dressed.before Dressed.after =
      Dressed.found := by
    intro m
    cases m <;> decide +kernel
  have hpair : ∀ m, correlate m "a.ts".toList Dressed.plain.text (some Dressed.before)
      (some Dressed.after) = .ok Dressed.outcome := by
    intro m
    cases m <;> decide +kernel
  have hplain : Diff.parse Dressed.plain.text = .ok ⟨[Dressed.plain], []⟩ := by decide +kernel
  have hreformatted : Diff.parse Dressed.reformatted.text = .ok ⟨[Dressed.reformatted], []⟩ := by
    decide +kernel
  refine ⟨hmeaning, hsame, fun m => ⟨hfound m, ?_, hpair m, ?_⟩, hweight, hplaced, ?_⟩
  · rw [← (hsame m).collect, hfound]
  · rw [← (hsame m).correlate _ _ _ _ _ hplain hreformatted, hpair]
  · rw [← hplaced.collect, hfound]

/-! ## Sets of changes -/

/-- The contents with a meaning that the hunks delete and add, wherever these lines stand. -/
def changes (hunks : List Hunk) : List (Side × Text) :=
  ((hunks.flatMap Hunk.bodyLines).filterMap fun line => (BodyLine.ofText line).change?).filter
    fun c => ChangedLine.isMeaningful c.2

/-- By content, nothing but the set of changes on a side counts. -/
theorem touches_substring_iff {side : Side} {s : Statement} :
    Matching.substring.Touches side (ChangedLine.ofHunks hunks) s ↔
      ∃ content, (side, content) ∈ changes hunks ∧ content <:+: s.text := by
  unfold changes
  rw [← Diff.map_ofHunks]
  simp only [List.mem_filter, List.mem_map, Prod.mk.injEq]
  constructor
  · rintro ⟨e, he, hside, hmeaningful, hselects⟩
    exact ⟨e.content, ⟨⟨e, he, hside, rfl⟩, hmeaningful⟩, hselects⟩
  · rintro ⟨content, ⟨⟨e, he, hside, rfl⟩, hmeaningful⟩, hselects⟩
    exact ⟨e, he, hside, hmeaningful, hselects⟩

/-- Hunks are not told apart from the same hunks in any order and any number.  By content, two
lists of hunks that delete the same meaningful contents and add the same ones are not told apart,
nor are two that have the same body lines, in whichever hunks and from whichever lines on. -/
theorem sameReduction_of_sameHunks (hunks hunks' : List Hunk) :
    ((∀ h, h ∈ hunks ↔ h ∈ hunks') → ∀ m, SameReduction m hunks hunks') ∧
      ((∀ c, c ∈ changes hunks ↔ c ∈ changes hunks') → SameReduction .substring hunks hunks') ∧
      ((∀ line, line ∈ hunks.flatMap Hunk.bodyLines ↔ line ∈ hunks'.flatMap Hunk.bodyLines) →
        SameReduction .substring hunks hunks') := by
  have hchanges : (∀ c, c ∈ changes hunks ↔ c ∈ changes hunks') →
      SameReduction .substring hunks hunks' := by
    intro h
    refine sameReduction_of_touches fun side s => ?_
    simp only [touches_substring_iff, h]
  refine ⟨?_, hchanges, ?_⟩
  · intro h m
    refine sameReduction_of_touches fun side s => ?_
    unfold Matching.Touches ChangedLine.ofHunks
    simp only [List.mem_flatMap, h]
  · intro h
    apply hchanges
    intro c
    unfold changes
    simp only [List.mem_filter, List.mem_filterMap, h]

/-! ### Two hunks in another order

The two hunks are listed the other way around and one of them twice.  The body lines of both stand
in one hunk as well, in another order and from another line on. -/

namespace Shuffled

def first : Hunk where
  header := "@@ -1 +1 @@".toList
  old := ⟨1, 1⟩
  new := ⟨1, 1⟩
  text := "@@ -1 +1 @@\n-a\n+b\n".toList

def last : Hunk where
  header := "@@ -8,2 +8 @@".toList
  old := ⟨8, 2⟩
  new := ⟨8, 1⟩
  text := "@@ -8,2 +8 @@\n-c\n-)\n+b\n".toList

def whole : Hunk where
  header := "@@ -3,3 +3,1 @@".toList
  old := ⟨3, 3⟩
  new := ⟨3, 1⟩
  text := "@@ -3,3 +3,1 @@\n+b\n-)\n-c\n-a".toList

def scattered : List Hunk :=
  [⟨[], ⟨0, 0⟩, ⟨0, 0⟩, "\n- a\n".toList⟩, ⟨[], ⟨5, 0⟩, ⟨7, 0⟩, "\n+b\n-c\n d\n".toList⟩]

def listed : List Hunk := [first, last]

def repeated : List Hunk := [last, first, last]

def before : List Statement := [⟨0, [], ['a'], 1, 7⟩, ⟨1, [], "c\n)".toList, 8, 9⟩]

def after : List Statement := [⟨0, [], ['b'], 1, 7⟩, ⟨1, [], "b;".toList, 8, 8⟩]

def found : Candidates := ⟨[['a'], "c\n)".toList], [['b'], "b;".toList]⟩

end Shuffled

/-- Both statements of each side are found, by whichever list. -/
theorem sameReduction_of_sameHunks_shuffled :
    (∀ h, h ∈ Shuffled.listed ↔ h ∈ Shuffled.repeated) ∧
      (∀ m, SameReduction m Shuffled.listed Shuffled.repeated) ∧
      (∀ m, Candidates.collect m Shuffled.listed Shuffled.before Shuffled.after = Shuffled.found ∧
        Candidates.collect m Shuffled.repeated Shuffled.before Shuffled.after = Shuffled.found) ∧
      (∀ c, c ∈ changes Shuffled.listed ↔ c ∈ changes Shuffled.scattered) ∧
      SameReduction .substring Shuffled.listed Shuffled.scattered ∧
      Candidates.collect .substring Shuffled.scattered Shuffled.before Shuffled.after =
        Shuffled.found ∧
      (∀ line, line ∈ Shuffled.listed.flatMap Hunk.bodyLines ↔
        line ∈ [Shuffled.whole].flatMap Hunk.bodyLines) ∧
      SameReduction .substring Shuffled.listed [Shuffled.whole] ∧
      Candidates.collect .substring [Shuffled.whole] Shuffled.before Shuffled.after =
        Shuffled.found := by
  have hmem : ∀ {α : Type} (l l' : List α), l ⊆ l' → l' ⊆ l → ∀ a, a ∈ l ↔ a ∈ l' :=
    fun l l' h h' a => ⟨fun ha => h ha, fun ha => h' ha⟩
  have hhunks := hmem Shuffled.listed Shuffled.repeated (by decide +kernel) (by decide +kernel)
  have hchanges := hmem (changes Shuffled.listed) (changes Shuffled.scattered)
    (by decide +kernel) (by decide +kernel)
  have hlines := hmem (Shuffled.listed.flatMap Hunk.bodyLines)
    ([Shuffled.whole].flatMap Hunk.bodyLines) (by decide +kernel) (by decide +kernel)
  have hrepeated := (sameReduction_of_sameHunks _ _).1 hhunks
  have hscattered := (sameReduction_of_sameHunks _ _).2.1 hchanges
  have hwhole := (sameReduction_of_sameHunks _ _).2.2 hlines
  have hfound : ∀ m, Candidates.collect m Shuffled.listed Shuffled.before Shuffled.after =
      Shuffled.found := by
    intro m
    cases m <;> decide +kernel
  refine ⟨hhunks, hrepeated, fun m => ⟨hfound m, ?_⟩, hchanges, hscattered, ?_, hlines, hwhole, ?_⟩
  · rw [← (hrepeated m).collect, hfound]
  · rw [← hscattered.collect, hfound]
  · rw [← hwhole.collect, hfound]

end Correlation
end ChangePairs
