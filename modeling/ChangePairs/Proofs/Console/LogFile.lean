import ChangePairs.Console.LogFile
import ChangePairs.Proofs.Distinct
import ChangePairs.Proofs.Path.Normal

/-!
Log files that are asked for again and again.  Whether a directory has one already is seen from the
directories of the files that are open; these are made from the normal path of the directory and the
name of the file, and give that path back (`Call.IsProper.directory_file`).  So the directories of
the open files are the distinct directories that were asked for, in the order of the first call for
each, in whatever spelling it came (`opened_oncePerDirectory`).

Of a call nothing is asked but that relative paths start at an absolute one and that the stamp has
no slash, as no point in time is written with one.
-/

namespace ChangePairs
namespace LogFile

structure Call where
  /-- The present directory at the time of the call. -/
  present : Path
  stamp : Text
  directory : Path

namespace Call

def target (c : Call) : Path := Path.absolute c.present c.directory

def file (c : Call) : Path := inDirectory c.target c.stamp

structure IsProper (c : Call) : Prop where
  present : c.present.head? = some '/'
  stamp : '/' ∉ c.stamp

theorem isName_file {stamp : Text} (h : '/' ∉ stamp) :
    Path.IsName ("learn_".toList ++ stamp ++ ".log".toList) := by
  refine ⟨List.cons_ne_nil _ _, nofun, nofun, ?_⟩
  have hlead : '/' ∉ "learn_".toList := by decide
  have hend : '/' ∉ ".log".toList := by decide
  simp only [List.mem_append, not_or]
  exact ⟨⟨hlead, h⟩, hend⟩

variable {c : Call}

theorem IsProper.isNormal_target (h : c.IsProper) : Path.IsNormal c.target :=
  Path.isNormal_absolute h.present c.directory

/-- The directory of a log file is the one that was asked for. -/
theorem IsProper.directory_file (h : c.IsProper) : Path.directory c.file = c.target :=
  (h.isNormal_target.join (isName_file h.stamp)).2

theorem IsProper.absolute_file (h : c.IsProper) : Path.absolute c.present c.file = c.file :=
  (h.isNormal_target.join (isName_file h.stamp)).1.absolute_eq c.present

def attach (c : Call) (opened : List Path) : List Path :=
  LogFile.attach c.present c.stamp c.directory opened

theorem IsProper.attach_eq (h : c.IsProper) (opened : List Path) :
    c.attach opened = if c.target ∈ opened.map Path.directory then opened
      else opened ++ [c.file] := by
  have hany : (opened.any fun file => Path.directory file = c.target) = true ↔
      c.target ∈ opened.map Path.directory := by simp
  show (if (opened.any fun file => Path.directory file = c.target) = true then opened
    else opened ++ [Path.absolute c.present c.file]) = _
  rw [h.absolute_file]
  exact if_congr hany rfl rfl

theorem IsProper.isPrefix_attach (h : c.IsProper) (opened : List Path) :
    opened <+: c.attach opened := by
  rw [h.attach_eq]
  split
  · exact List.prefix_rfl
  · exact List.prefix_append _ _

end Call

/-- The files that are open after calls, starting with none. -/
def opened (calls : List Call) : List Path := calls.foldl (fun files c => c.attach files) []

theorem opened_concat (calls : List Call) (c : Call) :
    opened (calls ++ [c]) = c.attach (opened calls) := List.foldl_concat _ _ _ _

theorem map_directory_opened {calls : List Call} (h : ∀ c ∈ calls, c.IsProper) :
    (opened calls).map Path.directory = distinct (calls.map Call.target) := by
  induction calls using List.reverseRecOn with
  | nil => rfl
  | append_singleton calls c ih =>
    rw [List.forall_mem_append] at h
    have hc := h.2 c List.mem_cons_self
    have hmem : c.target ∈ (opened calls).map Path.directory ↔
        c.target ∈ calls.map Call.target := by
      rw [ih h.1, mem_distinct]
    rw [opened_concat, hc.attach_eq, List.map_append, List.map_singleton, distinct_concat]
    by_cases htarget : c.target ∈ calls.map Call.target
    · rw [if_pos (hmem.2 htarget), if_pos htarget, ih h.1]
    · rw [if_neg (mt hmem.1 htarget), if_neg htarget, List.map_append, ih h.1, List.map_singleton,
        hc.directory_file]

theorem isPrefix_opened {before after : List Call} (h : ∀ c ∈ after, c.IsProper) :
    opened before <+: opened (before ++ after) := by
  induction after using List.reverseRecOn with
  | nil => simp
  | append_singleton after c ih =>
    rw [List.forall_mem_append] at h
    rw [← List.append_assoc, opened_concat]
    exact (ih h.1).trans ((h.2 c List.mem_cons_self).isPrefix_attach _)

/-- Every directory that was asked for has one log file, that of the first call for it, and it stays
where it is. -/
theorem opened_oncePerDirectory {calls : List Call} (h : ∀ c ∈ calls, c.IsProper) :
    ListsInOrder (fun c d => Call.target c = d) calls ((opened calls).map Path.directory) ∧
      (∀ before after, calls = before ++ after → opened before <+: opened calls) ∧
      ∀ before c after, calls = before ++ c :: after → (∀ b ∈ before, b.target ≠ c.target) →
        opened (before ++ [c]) = opened before ++ [c.file] := by
  refine ⟨?_, ?_, ?_⟩
  · rw [map_directory_opened h]
    exact listsInOrder_distinct_map Call.target calls
  · rintro before after rfl
    exact isPrefix_opened (List.forall_mem_append.1 h).2
  · rintro before c after rfl hnew
    obtain ⟨hbefore, hafter⟩ := List.forall_mem_append.1 h
    have hc := hafter c List.mem_cons_self
    have hnone : c.target ∉ (opened before).map Path.directory := by
      rw [map_directory_opened hbefore, mem_distinct, List.mem_map]
      rintro ⟨b, hb, hsame⟩
      exact hnew b hb hsame
    rw [opened_concat, hc.attach_eq, if_neg hnone]

/-! ## Many spellings of few directories -/

namespace Respelled

def call (stamp directory : String) : Call := ⟨"/work/repo".toList, stamp.toList, directory.toList⟩

def calls : List Call :=
  [call "1" "logs", call "2" "../repo//logs/.", call "3" "//", call "4" "", call "5" "///",
   call "6" "/work/./repo/", call "7" "//.", call "8" "../.."]

def files : List Path :=
  ["/work/repo/logs/learn_1.log".toList, "//learn_3.log".toList, "/work/repo/learn_4.log".toList,
   "/learn_5.log".toList]

end Respelled

theorem opened_oncePerDirectory_respelled :
    (∀ c ∈ Respelled.calls, c.IsProper) ∧ opened Respelled.calls = Respelled.files ∧
      ListsInOrder (fun c d => Call.target c = d) Respelled.calls
        ["/work/repo/logs".toList, "//".toList, "/work/repo".toList, "/".toList] := by
  have hproper : ∀ c ∈ Respelled.calls, c.IsProper := by
    intro c hc
    have hcheck : ∀ c ∈ Respelled.calls, c.present.head? = some '/' ∧ '/' ∉ c.stamp := by decide
    exact ⟨(hcheck c hc).1, (hcheck c hc).2⟩
  exact ⟨hproper, by decide +kernel, (opened_oncePerDirectory hproper).1⟩

end LogFile
end ChangePairs
