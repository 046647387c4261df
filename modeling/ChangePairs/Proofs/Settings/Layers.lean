import Mathlib.Data.List.Nodup
import ChangePairs.Proofs.Failure
import ChangePairs.Settings.Basic

/-!
Settings that do not leak.  A key of the settings file is heeded if it belongs to a setting whose
variable is not set and has something else than null under it; a file that is left with such keys
makes the same settings, or has the same first value that cannot be converted.

More than that, settings are made one by one.  `Layers.only` leaves to a setting its own variable
and its own key and empties the layers of everything else.  What all settings come to together is
what each of them comes to alone (`IsComposedOf`), and the first that fails alone is the one that
fails.

The main statement is `ofLayers_reduced`.
-/

namespace ChangePairs

namespace Mapping

def keep (p : Scalar → Bool) (m : Mapping) : Mapping := m.filter fun entry => p entry.1

theorem get?_keep (p : Scalar → Bool) (key : Text) (m : Mapping) :
    get? key (keep p m) = if p (.text key) then get? key m else none := by
  induction m with
  | nil => simp [keep, get?]
  | cons entry rest ih =>
    by_cases hkey : entry.1.isSameKey (.text key) = true
    · have hfound : get? key (entry :: rest) = some entry.2 := if_pos hkey
      rw [hfound, ← Scalar.isSameKey_text.1 hkey]
      by_cases hp : p entry.1 = true
      · have hkeep : keep p (entry :: rest) = entry :: keep p rest := List.filter_cons_of_pos hp
        rw [hkeep, if_pos hp]
        exact if_pos hkey
      · have hkeep : keep p (entry :: rest) = keep p rest := List.filter_cons_of_neg hp
        rw [hkeep, ih, ← Scalar.isSameKey_text.1 hkey, if_neg hp, if_neg hp]
    · have hskip : ∀ m, get? key (entry :: m) = get? key m := fun _ => if_neg hkey
      rw [hskip, ← ih]
      unfold keep
      rw [List.filter_cons]
      split
      · exact hskip _
      · rfl

end Mapping

namespace Setting

theorem mem_all (s : Setting) : s ∈ all := by
  cases s <;> decide

theorem key_injective {r s : Setting} (h : r.key = s.key) : r = s := by
  have hnodup : (all.map key).Nodup := by decide +kernel
  exact List.inj_on_of_nodup_map hnodup (mem_all r) (mem_all s) h

theorem isSameKey_key_iff {r s : Setting} :
    (Scalar.text r.key).isSameKey (.text s.key) = true ↔ r = s := by
  rw [Scalar.isSameKey_text, Scalar.text.injEq]
  exact ⟨key_injective, fun h => h ▸ rfl⟩

theorem environmentName_injective {r s : Setting} (h : r.environmentName = s.environmentName) :
    r = s := by
  have hnodup : (all.map environmentName).Nodup := by decide +kernel
  exact List.inj_on_of_nodup_map hnodup (mem_all r) (mem_all s) h

end Setting

namespace Layers

/-! ## Keys that are heeded -/

def isSaid : Option Value → Bool
  | none | some (.scalar .null) => false
  | some _ => true

/-- Whether a key is that of a setting whose variable is not set, with something said under it. -/
def heeds (l : Layers) (key : Scalar) : Bool :=
  Setting.all.any fun s => key.isSameKey (.text s.key) &&
    ((l.environment s.environmentName).isNone && isSaid (l.file.get? s.key))

/-- The layers with nothing in the file but the keys that are heeded. -/
def reduced (l : Layers) : Layers := { l with file := l.file.keep l.heeds }

def put (l : Layers) (s : Setting) (v : Value) : Layers :=
  { l with file := l.file.put (.text s.key) v }

def only (l : Layers) (s : Setting) : Layers where
  environment name := if name = s.environmentName then l.environment name else none
  file := l.file.keep fun key => key.isSameKey (.text s.key)

theorem heeds_key (l : Layers) (s : Setting) :
    l.heeds (.text s.key) =
      ((l.environment s.environmentName).isNone && isSaid (l.file.get? s.key)) := by
  unfold heeds
  rw [Bool.eq_iff_iff, List.any_eq_true]
  constructor
  · rintro ⟨r, -, hr⟩
    obtain ⟨hkey, hr⟩ := Bool.and_eq_true_iff.1 hr
    rwa [← Setting.isSameKey_key_iff.1 hkey] at hr
  · intro hs
    exact ⟨s, Setting.mem_all s, Bool.and_eq_true_iff.2 ⟨Setting.isSameKey_key_iff.2 rfl, hs⟩⟩

/-- What is not said is the same as nothing. -/
theorem value?_of_environment {l : Layers} {s : Setting}
    (h : l.environment s.environmentName = none) :
    l.value? s = if isSaid (l.file.get? s.key) then l.file.get? s.key else none := by
  unfold value?
  rw [h]
  cases l.file.get? s.key with
  | none => rfl
  | some v =>
    cases v with
    | scalar v => cases v <;> rfl
    | _ => rfl

theorem value?_of_set {l : Layers} {s : Setting} {t : Text}
    (h : l.environment s.environmentName = some t) : l.value? s = some (.ofText t) := by
  unfold value?
  rw [h]

theorem value?_reduced (l : Layers) (s : Setting) : l.reduced.value? s = l.value? s := by
  cases h : l.environment s.environmentName with
  | some t => rw [value?_of_set h, value?_of_set (l := l.reduced) h]
  | none =>
    have hget : l.reduced.file.get? s.key =
        if isSaid (l.file.get? s.key) then l.file.get? s.key else none := by
      show Mapping.get? s.key (l.file.keep l.heeds) = _
      rw [Mapping.get?_keep, heeds_key, h]
      rfl
    rw [value?_of_environment h, value?_of_environment (l := l.reduced) h, hget]
    by_cases hsaid : isSaid (l.file.get? s.key) = true
    · rw [if_pos hsaid, if_pos hsaid]
    · rw [if_neg hsaid]
      rfl

theorem value?_put {l : Layers} {s : Setting} (h : l.environment s.environmentName ≠ none)
    (v : Value) (r : Setting) : (l.put s v).value? r = l.value? r := by
  by_cases hrs : r = s
  · subst hrs
    obtain ⟨t, ht⟩ := Option.ne_none_iff_exists'.1 h
    rw [value?_of_set ht, value?_of_set (l := l.put r v) ht]
  · have hkey : r.key ≠ s.key := fun hkey => hrs (Setting.key_injective hkey)
    unfold value? put
    dsimp only
    rw [Mapping.get?_put_of_ne hkey]

theorem value?_only (l : Layers) (s r : Setting) :
    (l.only s).value? r = if r = s then l.value? s else none := by
  unfold value? only
  dsimp only
  rw [Mapping.get?_keep]
  by_cases hrs : r = s
  · subst hrs
    rw [if_pos rfl, if_pos rfl, if_pos (Setting.isSameKey_key_iff.2 rfl)]
  · have hname : r.environmentName ≠ s.environmentName :=
      fun hname => hrs (Setting.environmentName_injective hname)
    rw [if_neg hname, if_neg hrs, if_neg (mt Setting.isSameKey_key_iff.1 hrs)]

end Layers

namespace Settings

/-! ## Setting by setting -/

inductive Datum where
  | text (t : Text)
  | integer (n : Int)
  | double (x : Float)
  | texts (ts : List Text)

def datum (c : Settings) : Setting → Datum
  | .learnApiUrl => .text c.learnApiUrl
  | .studioUrl => .text c.studioUrl
  | .engine => .text c.engine
  | .strategy => .text c.strategy
  | .matching => .text c.matching
  | .maxWorkers => .integer c.maxWorkers
  | .requestTimeout => .double c.requestTimeout
  | .maxRetries => .integer c.maxRetries
  | .retryDelay => .double c.retryDelay
  | .extensions => .texts c.extensions
  | .logDirectory => .text c.logDirectory

theorem eq_of_datum {c c' : Settings} (h : ∀ s, c.datum s = c'.datum s) : c = c' := by
  have hall := List.map_congr_left (l := Setting.all) fun s _ => h s
  obtain ⟨_, _, _, _, _, _, _, _, _, _, _⟩ := c
  obtain ⟨_, _, _, _, _, _, _, _, _, _, _⟩ := c'
  simpa [Setting.all, datum] using hall

def outcome (l : Layers) : Setting → Except ConversionError Datum
  | .learnApiUrl => do
    return .text (Text.dropEnd (· = '/') (← l.readText "https://backend.codemod.com" .learnApiUrl))
  | .studioUrl => return .text (← l.readText "https://codemod.com/studio" .studioUrl)
  | .engine => return .text (← l.readText "jscodeshift" .engine)
  | .strategy => return .text (← l.readText "hunks" .strategy)
  | .matching => return .text (← l.readText "position" .matching)
  | .maxWorkers => return .integer (← l.read Value.toInt 4 .maxWorkers)
  | .requestTimeout => return .double (← l.read Value.toDouble 30.0 .requestTimeout)
  | .maxRetries => return .integer (← l.read Value.toInt 3 .maxRetries)
  | .retryDelay => return .double (← l.read Value.toDouble 1.0 .retryDelay)
  | .extensions => return .texts (← Extension.ofSetting (l.value? .extensions))
  | .logDirectory => return .text (← l.readText ".codemod-learn/logs" .logDirectory)

theorem outcome_congr {l l' : Layers} {s : Setting} (h : l.value? s = l'.value? s) :
    outcome l s = outcome l' s := by
  cases s <;> simp only [outcome, Layers.readText, Layers.read, h]

/-- A setting of which the layers say nothing has its built-in value. -/
theorem not_fails_outcome {l : Layers} {s : Setting} (h : l.value? s = none) :
    ¬ Fails (outcome l s) := by
  cases s <;> simp only [outcome, Layers.readText, Layers.read, h] <;> exact not_fails_ok _

/-- The settings are read one after the other. -/
theorem map_datum_ofLayers (l : Layers) :
    (ofLayers l).map (fun c => Setting.all.map c.datum) = Setting.all.mapM (outcome l) := by
  show (fun c : Settings => Setting.all.map c.datum) <$> ofLayers l = _
  unfold ofLayers Setting.all
  simp only [List.mapM_cons, List.mapM_nil, outcome, map_bind, map_pure, bind_assoc, pure_bind]
  rfl

/-- Settings are made of the layers if each of them is made of what the layers say of it. -/
theorem ofLayers_eq_ok_iff {l : Layers} {c : Settings} :
    ofLayers l = .ok c ↔ ∀ s, outcome l s = .ok (c.datum s) := by
  have hall : (ofLayers l).map (fun c => Setting.all.map c.datum) =
      .ok (Setting.all.map c.datum) ↔ ∀ s, outcome l s = .ok (c.datum s) := by
    rw [map_datum_ofLayers, mapM_eq_ok_iff]
    exact ⟨fun h s => h s (Setting.mem_all s), fun h s _ => h s⟩
  rw [← hall]
  cases ofLayers l with
  | error e => exact iff_of_false nofun nofun
  | ok c' =>
    constructor
    · intro h
      rw [Except.ok.inj h]
      rfl
    · intro h
      have hdata := List.map_inj_left.1 (Except.ok.inj h)
      rw [eq_of_datum fun s => hdata s (Setting.mem_all s)]

theorem ofLayers_eq_error_iff {l : Layers} {e : ConversionError} :
    ofLayers l = .error e ↔ FailsFirst (outcome l) Setting.all e := by
  rw [← mapM_eq_error_iff, ← map_datum_ofLayers, map_eq_error_iff]

/-- Alone, a setting comes to the same as among the others. -/
theorem map_datum_only (l : Layers) (s : Setting) :
    (ofLayers (l.only s)).map (·.datum s) = outcome l s := by
  have hself : outcome (l.only s) s = outcome l s := by
    apply outcome_congr
    rw [Layers.value?_only, if_pos rfl]
  cases h : ofLayers (l.only s) with
  | ok c => rw [← hself, ofLayers_eq_ok_iff.1 h s, Except.map]
  | error e =>
    obtain ⟨before, r, after, -, -, hr⟩ := ofLayers_eq_error_iff.1 h
    have hrs : r = s := by
      by_contra hrs
      have hnone : (l.only s).value? r = none := by rw [Layers.value?_only, if_neg hrs]
      exact not_fails_outcome hnone ⟨e, hr⟩
    subst hrs
    rw [← hself, hr, Except.map]

theorem ofLayers_only_eq_error_iff {l : Layers} {s : Setting} {e : ConversionError} :
    ofLayers (l.only s) = .error e ↔ outcome l s = .error e := by
  rw [← map_datum_only, map_eq_error_iff]

/-! ## All settings -/

/-- What comes of all settings is put together from what comes of each by itself: each is set to
what it is set to there, and if some of them fail there, the first of these is the one that fails. -/
inductive IsComposedOf (single : Setting → Except ConversionError Settings) :
    Except ConversionError Settings → Prop where
  | ok {c : Settings} (h : ∀ s, ∃ alone, single s = .ok alone ∧ alone.datum s = c.datum s) :
      IsComposedOf single (.ok c)
  | error {e : ConversionError} (h : FailsFirst single Setting.all e) :
      IsComposedOf single (.error e)

theorem isComposedOf_iff {l : Layers} {result : Except ConversionError Settings} :
    IsComposedOf (fun s => ofLayers (l.only s)) result ↔ result = ofLayers l := by
  constructor
  · intro h
    cases h with
    | @ok c h =>
      symm
      apply ofLayers_eq_ok_iff.2
      intro s
      rw [← map_datum_only]
      exact map_eq_ok_iff.2 (h s)
    | error h =>
      symm
      exact ofLayers_eq_error_iff.2 (h.congr fun _ _ => ofLayers_only_eq_error_iff)
  · rintro rfl
    cases h : ofLayers l with
    | ok c =>
      refine .ok fun s => ?_
      have hmap := map_datum_only l s
      rw [ofLayers_eq_ok_iff.1 h s] at hmap
      exact map_eq_ok_iff.1 hmap
    | error e =>
      have hfirst := ofLayers_eq_error_iff.1 h
      exact .error (hfirst.congr fun _ _ => ofLayers_only_eq_error_iff.symm)

theorem ofLayers_congr {l l' : Layers} (h : ∀ s, l.value? s = l'.value? s) :
    ofLayers l = ofLayers l' := by
  unfold ofLayers Layers.readText Layers.read
  simp only [h]

/-- Nothing but the keys that are heeded has an influence, and each of these on its own setting
alone. -/
theorem ofLayers_reduced (l : Layers) :
    ofLayers l.reduced = ofLayers l ∧
      (∀ s v, l.environment s.environmentName ≠ none → ofLayers (l.put s v) = ofLayers l) ∧
      ∀ result, IsComposedOf (fun s => ofLayers (l.only s)) result ↔ result = ofLayers l := by
  refine ⟨ofLayers_congr l.value?_reduced, ?_, fun _ => isComposedOf_iff⟩
  intro s v hset
  exact ofLayers_congr (Layers.value?_put hset v)

/-! ## A file with much that is not heeded -/

namespace Overlaid

/-- What cannot be converted but is set in the environment, null, unknown keys, and one value under
a key that is heeded but cannot be converted. -/
def file : Mapping :=
  [(.text "max_workers".toList, .list []), (.text "engine".toList, .scalar .null),
   (.text "engines".toList, .ofText "jscodeshift".toList), (.int 1, .list []),
   (.text "retry_delay".toList, .mapping []),
   (.text "strategy".toList, .ofText "statements".toList)]

def layers : Layers where
  environment name := if name = Setting.environmentName .maxWorkers then some "8".toList else none
  file := file

def heeded : Mapping :=
  [(.text "retry_delay".toList, .mapping []),
   (.text "strategy".toList, .ofText "statements".toList)]

def error : ConversionError := .notNumber .double .mapping

end Overlaid

theorem ofLayers_reduced_overlaid :
    Overlaid.layers.reduced = { Overlaid.layers with file := Overlaid.heeded } ∧
      Overlaid.layers.environment (Setting.environmentName .maxWorkers) ≠ none ∧
      ofLayers Overlaid.layers.reduced = .error Overlaid.error ∧
      (∀ v, ofLayers (Overlaid.layers.put .maxWorkers v) = .error Overlaid.error) ∧
      ofLayers (Overlaid.layers.only .retryDelay) = .error Overlaid.error := by
  have hset : Overlaid.layers.environment (Setting.environmentName .maxWorkers) ≠ none := nofun
  have herror : ofLayers Overlaid.layers = .error Overlaid.error := rfl
  obtain ⟨hreduced, hput, -⟩ := ofLayers_reduced Overlaid.layers
  exact ⟨rfl, hset, hreduced.trans herror, fun v => (hput .maxWorkers v hset).trans herror, rfl⟩

end Settings
end ChangePairs
