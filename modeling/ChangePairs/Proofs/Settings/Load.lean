import ChangePairs.Proofs.Text.Utf8
import ChangePairs.Settings.Load
import ChangePairs.Yaml.Document

/-!
Settings files that say nothing.  Such a file holds no mapping (`IsUnusable`): it cannot be opened, its
octets are no text, the reader of YAML finds the text malformed, or there is something else in it.
The settings are then those of the environment alone, or cannot be converted for a reason that lies
there (`load_unusable`).

Octets that are no text are the exception, and the only one: where the reader comes to them, the
settings cannot be loaded at all (`not_load_unusable_latin`).  A reader that finds the file malformed
before that never sees them.

Two things are relied on of the reader.  It gives a value or finds a text malformed, and does not fail
otherwise (`Yaml.Reader.Settles`), and it gives no value before it has seen the end of the text
(`Yaml.Reader.ReadsWhole`), so that no file has one whose octets are no text.
-/

namespace ChangePairs

/-- The octets are those of a text. -/
def Octets.IsText (octets : Octets) : Prop := ∃ t, octets = Octets.encode t

open Octets (IsText)

namespace TextFile

variable {parts : List Octets}

/-- A text is read from its octets however they are cut into parts. -/
theorem ofParts_of_flatten_eq {t : Text} (h : parts.flatten = Octets.encode t) :
    ofParts parts = ⟨Text.unifyNewlines t, none⟩ := by
  unfold ofParts
  rw [Octets.Decoder.parts_eq_iff.2 h]

theorem fault?_ofParts_eq_none_iff : (ofParts parts).fault? = none ↔ IsText parts.flatten := by
  constructor
  · intro h
    unfold ofParts at h
    split at h
    · next t hparts => exact ⟨t, Octets.Decoder.parts_eq_iff.1 hparts⟩
    · nomatch h
  · rintro ⟨t, ht⟩
    rw [ofParts_of_flatten_eq ht]

end TextFile

namespace Yaml.Reader

variable {ε : Type} {yaml : Reader ε} {file : TextFile}

/-- The reader ends with a value or finds the text malformed. -/
structure Settles (yaml : Reader ε) : Prop where
  early : ∀ t e, yaml.early? t ≠ some (.error (.failed e))
  whole : ∀ t e, yaml.whole t ≠ .error (.failed e)

/-- The reader gives no value before it has seen the end of the text. -/
def ReadsWhole (yaml : Reader ε) : Prop := ∀ t v, yaml.early? t ≠ some (.ok v)

/-- The reader asks for the characters of the part in which one is broken. -/
structure Meets (yaml : Reader ε) (file : TextFile) (fault : Octets.Fault) : Prop where
  fault : file.fault? = some fault
  readsOn : ∀ front ∈ file.fronts yaml.pieceLength, yaml.early? front = none

theorem read_eq_error_iff {fault : Octets.Fault} :
    yaml.read file = .error fault ↔ yaml.Meets file fault := by
  unfold read
  cases hearly : (file.fronts yaml.pieceLength).findSome? yaml.early? with
  | some ending =>
    obtain ⟨front, hfront, hending⟩ := List.exists_of_findSome?_eq_some hearly
    constructor
    · nofun
    · intro h
      rw [h.readsOn front hfront] at hending
      nomatch hending
  | none =>
    rw [List.findSome?_eq_none_iff] at hearly
    cases hfault : file.fault? with
    | none => exact ⟨nofun, fun h => nomatch hfault.symm.trans h.fault⟩
    | some found =>
      constructor
      · intro h
        exact ⟨hfault.trans (congrArg some (Except.error.inj h)), hearly⟩
      · intro h
        exact congrArg Except.error (Option.some.inj (hfault.symm.trans h.fault))

/-- Where a reader does not meet a broken character, it ends on the start of the text or, without a
broken character, on all of it. -/
theorem exists_of_read_eq_ok {ending : Except (Refusal ε) Value} (h : yaml.read file = .ok ending) :
    (∃ t, yaml.early? t = some ending) ∨ (file.fault? = none ∧ yaml.whole file.text = ending) := by
  unfold read at h
  cases hearly : (file.fronts yaml.pieceLength).findSome? yaml.early? with
  | some found =>
    obtain ⟨front, -, hfront⟩ := List.exists_of_findSome?_eq_some hearly
    rw [hearly] at h
    exact .inl ⟨front, hfront.trans (congrArg some (Except.ok.inj h))⟩
  | none =>
    rw [hearly] at h
    cases hfault : file.fault? with
    | some fault => rw [hfault] at h; nomatch h
    | none =>
      rw [hfault] at h
      exact .inr ⟨rfl, Except.ok.inj h⟩

theorem Settles.read_ne (hsettles : yaml.Settles) (e : ε) :
    yaml.read file ≠ .ok (.error (.failed e)) := by
  intro h
  rcases exists_of_read_eq_ok h with ⟨t, ht⟩ | ⟨-, ht⟩
  · exact hsettles.early t e ht
  · exact hsettles.whole _ e ht

theorem ReadsWhole.fault?_eq_none (hwhole : yaml.ReadsWhole) {v : Value}
    (h : yaml.read file = .ok (.ok v)) : file.fault? = none := by
  rcases exists_of_read_eq_ok h with ⟨t, ht⟩ | ⟨hnone, -⟩
  · exact absurd ht (hwhole t v)
  · exact hnone

end Yaml.Reader

namespace SettingsFile

variable {ε : Type} {yaml : Yaml.Reader ε} {parts : List Octets}

/-- A settings file is a text that the reader makes a mapping of. -/
def Holds (yaml : Yaml.Reader ε) (parts : List Octets) (m : Mapping) : Prop :=
  IsText parts.flatten ∧ yaml.read (.ofParts parts) = .ok (.ok (.mapping m))

/-- What a settings file has, if it can be opened, is no mapping. -/
def IsUnusable (yaml : Yaml.Reader ε) (parts? : Option (List Octets)) : Prop :=
  ∀ parts, parts? = some parts → ∀ m, ¬ Holds yaml parts m

/-- A file that can be opened is unusable for one of three reasons. -/
theorem isUnusable_some_iff (hsettles : yaml.Settles) : IsUnusable yaml (some parts) ↔
    ¬ IsText parts.flatten ∨ yaml.read (.ofParts parts) = .ok (.error .malformed) ∨
      ∃ v, (∀ m, v ≠ .mapping m) ∧ yaml.read (.ofParts parts) = .ok (.ok v) := by
  constructor
  · intro h
    by_cases htext : IsText parts.flatten
    · right
      cases hread : yaml.read (.ofParts parts) with
      | error fault =>
        have hfault := (Yaml.Reader.read_eq_error_iff.1 hread).fault
        rw [TextFile.fault?_ofParts_eq_none_iff.2 htext] at hfault
        nomatch hfault
      | ok ending =>
        match ending, hread with
        | .ok v, hread =>
          refine .inr ⟨v, ?_, rfl⟩
          rintro m rfl
          exact h parts rfl m ⟨htext, hread⟩
        | .error .malformed, _ => exact .inl rfl
        | .error (.failed e), hread => exact absurd hread (hsettles.read_ne e)
    · exact .inl htext
  · rintro h _ ⟨⟩ m ⟨htext, hread⟩
    rcases h with hno | hmalformed | ⟨v, hv, hvalue⟩
    · exact hno htext
    · nomatch hread.symm.trans hmalformed
    · exact hv m (Except.ok.inj (Except.ok.inj (hvalue.symm.trans hread)))

/-- What the reader ends on in an unusable file is taken for a mapping without entries. -/
theorem mapping_of_isUnusable (hsettles : yaml.Settles) (hwhole : yaml.ReadsWhole)
    (h : IsUnusable yaml (some parts)) {ending : Except (Yaml.Refusal ε) Value}
    (hread : yaml.read (.ofParts parts) = .ok ending) : mapping yaml parts = .ok [] := by
  unfold mapping
  rw [hread]
  match ending, hread with
  | .error .malformed, _ => rfl
  | .error (.failed e), hread => exact absurd hread (hsettles.read_ne e)
  | .ok v, hread =>
    cases v with
    | mapping m =>
      have htext := TextFile.fault?_ofParts_eq_none_iff.1 (hwhole.fault?_eq_none hread)
      exact absurd ⟨htext, hread⟩ (h parts rfl m)
    | _ => rfl

theorem mapping_of_meets {fault : Octets.Fault} (h : yaml.Meets (.ofParts parts) fault) :
    mapping yaml parts = .error (.encoding fault) := by
  unfold mapping
  rw [Yaml.Reader.read_eq_error_iff.2 h]
  rfl

end SettingsFile

namespace Settings

open SettingsFile (IsUnusable)

variable {ε : Type}

def withoutFile (environment : Environment) : Except (SettingsError ε) Settings :=
  (ofLayers ⟨environment, []⟩).mapError .conversion

/-- The settings that an environment has together with what the settings file holds. -/
def withFile (yaml : Yaml.Reader ε) (environment : Environment) (parts : List Octets) :
    Except (SettingsError ε) Settings := do
  (ofLayers ⟨environment, ← SettingsFile.mapping yaml parts⟩).mapError .conversion

/-- Without a file there is nothing to be in another encoding. -/
theorem withoutFile_ne_encoding (environment : Environment) (fault : Octets.Fault) :
    withoutFile environment ≠ .error (.encoding fault : SettingsError ε) := by
  unfold withoutFile
  cases ofLayers ⟨environment, []⟩ <;> nofun

section

variable {σ : Type} {yaml : Yaml.Reader ε} {files : FileSystem (StateM σ)} {d : Directories}
  {named : Option Path} {p : Path} {world world' world'' : σ}

/-- The first file there is, and no other, is read and makes the settings. -/
theorem run_load (environment : Environment) {parts? : Option (List Octets)}
    (hfile : (firstFile? files (SettingsFile.candidates d named)).run world = (some p, world'))
    (hread : (files.readParts p).run world' = (parts?, world'')) :
    (load yaml files d environment named).run world =
      (parts?.elim (withoutFile environment) (withFile yaml environment), world'') := by
  unfold load
  rw [StateT.run_bind, hfile]
  show (files.readParts p >>= _).run world' = _
  rw [StateT.run_bind, hread]
  cases parts? <;> rfl

/-- A settings file without a mapping leaves the environment alone, unless the reader comes to octets
in it that are no text. -/
theorem load_unusable (hsettles : yaml.Settles) (hwhole : yaml.ReadsWhole)
    (environment : Environment) {parts? : Option (List Octets)}
    (hfile : (firstFile? files (SettingsFile.candidates d named)).run world = (some p, world'))
    (hread : (files.readParts p).run world' = (parts?, world'')) (h : IsUnusable yaml parts?) :
    ((∀ parts fault, parts? = some parts → ¬ yaml.Meets (.ofParts parts) fault) ∧
        (load yaml files d environment named).run world = (withoutFile environment, world'')) ∨
      ∃ parts fault, parts? = some parts ∧ yaml.Meets (.ofParts parts) fault ∧
        ¬ IsText parts.flatten ∧
        (load yaml files d environment named).run world = (.error (.encoding fault), world'') := by
  rw [run_load environment hfile hread]
  cases parts? with
  | none => exact .inl ⟨nofun, rfl⟩
  | some parts =>
    rw [Option.elim_some, withFile]
    cases hending : yaml.read (.ofParts parts) with
    | ok ending =>
      left
      rw [SettingsFile.mapping_of_isUnusable hsettles hwhole h hending]
      refine ⟨?_, rfl⟩
      rintro _ fault ⟨⟩ hmeets
      nomatch hending.symm.trans (Yaml.Reader.read_eq_error_iff.2 hmeets)
    | error fault =>
      have hmeets := Yaml.Reader.read_eq_error_iff.1 hending
      refine .inr ⟨parts, fault, rfl, hmeets, ?_, ?_⟩
      · rw [← TextFile.fault?_ofParts_eq_none_iff, hmeets.fault]
        nofun
      · rw [SettingsFile.mapping_of_meets hmeets]
        rfl

end

/-! ## Two settings files

One whose brackets are not closed, and one in an encoding with one octet for each character. -/

namespace Latin

/-- The reader of this library, except that whatever it fails at is malformed to it. -/
def yaml : Yaml.Reader Empty where
  pieceLength := Yaml.reader.pieceLength
  early? t := if t.all Yaml.isAllowed then none else some (.error .malformed)
  whole t := (Yaml.read t).mapError fun _ => .malformed

theorem settles : yaml.Settles := ⟨fun _ e => e.elim, fun _ e => e.elim⟩

theorem readsWhole : yaml.ReadsWhole := by
  intro t v
  show (if _ then _ else _) ≠ _
  split <;> nofun

def files (octets : Octets) : FileSystem (StateM Unit) where
  isFile path := return path = "/work/.codemod-learn.yaml".toList
  isDirectory _ := return true
  read _ := return some octets
  readParts _ := return some [octets]

def directories : Directories := ⟨"/work".toList, "/home".toList⟩

def environment : Environment := fun name =>
  if name = Setting.environmentName .maxWorkers then some "many".toList else none

def unclosed : Text := "strategy: [unclosed\n".toList

def octets : Octets := [0x65, 0x6E, 0x67, 0x69, 0x6E, 0x65, 0x3A, 0x20, 0x63, 0x61, 0x66, 0xE9, 0x0A]

def result (octets : Octets) (environment : Environment) : Except (SettingsError Empty) Settings :=
  ((load yaml (files octets) directories environment none).run ()).1

end Latin

/-- A variable that is no number is still complained about, as it is without a file. -/
theorem load_unusable_unclosed :
    Latin.result (Octets.encode Latin.unclosed) Latin.environment =
        .error (.conversion (.integer (.malformed "many".toList))) ∧
      ∀ environment,
        Latin.result (Octets.encode Latin.unclosed) environment = withoutFile environment := by
  have hunusable : IsUnusable Latin.yaml (some [Octets.encode Latin.unclosed]) :=
    (SettingsFile.isUnusable_some_iff Latin.settles).2 (.inr (.inl rfl))
  have hsame : ∀ environment,
      Latin.result (Octets.encode Latin.unclosed) environment = withoutFile environment := by
    intro environment
    have hfile : (firstFile? (Latin.files (Octets.encode Latin.unclosed))
        (SettingsFile.candidates Latin.directories none)).run () =
          (some "/work/.codemod-learn.yaml".toList, ()) := rfl
    rcases load_unusable Latin.settles Latin.readsWhole environment hfile rfl hunusable with
      ⟨-, hload⟩ | ⟨_, _, hparts, -, htext, -⟩
    · exact congrArg Prod.fst hload
    · obtain rfl := Option.some.inj hparts
      exact absurd ⟨Latin.unclosed, List.append_nil _⟩ htext
  exact ⟨(hsame Latin.environment).trans rfl, hsame⟩

/-- Octets that are no text keep the settings from being loaded. -/
theorem not_load_unusable_latin :
    Latin.yaml.Settles ∧ Latin.yaml.ReadsWhole ∧ IsUnusable Latin.yaml (some [Latin.octets]) ∧
      Latin.result Latin.octets (fun _ => none) =
        .error (.encoding ⟨.invalidContinuation, 11, [0xE9]⟩) ∧
      Latin.result Latin.octets (fun _ => none) ≠ withoutFile fun _ => none := by
  have hresult : Latin.result Latin.octets (fun _ => none) =
      .error (.encoding ⟨.invalidContinuation, 11, [0xE9]⟩) := rfl
  have htext : ¬ IsText [Latin.octets].flatten := by
    rw [← TextFile.fault?_ofParts_eq_none_iff]
    nofun
  refine ⟨Latin.settles, Latin.readsWhole, ?_, hresult, ?_⟩
  · exact (SettingsFile.isUnusable_some_iff Latin.settles).2 (.inl htext)
  · rw [hresult]
    exact (withoutFile_ne_encoding _ _).symm

end Settings
end ChangePairs
