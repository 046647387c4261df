import ChangePairs.Proofs.Pairing
import ChangePairs.Proofs.Settings.Layers
import ChangePairs.Proofs.Text.Blank
import ChangePairs.Proofs.Text.LowerCase

/-!
Extensions in every spelling.  Words that name extensions may stand in a list of the settings file,
each with blanks around it, or in one environment variable, with commas and blanks between them.
Both come to the canonical extensions, which are the words in lower case and with a dot in front,
and nothing else of the settings depends on the words.  Canonical extensions are words again and
their own canonical extensions, so they may be set in place of the words.  A path is accepted or not
whatever the case of the letters in it and in the words.  `ofLayers_spelled` says all of this.

The words are in ASCII, since a letter of another script may have a lower case that is more than one
character or depends on its neighbours.  Of the path nothing is asked.
-/

namespace ChangePairs

namespace Path

/-- Dots and slashes have no case, so they part a path where they parted it before. -/
theorem extension_lowerAscii (p : Path) :
    extension (Text.lowerAscii p) = Text.lowerAscii (extension p) := by
  have heq : ∀ a c : Char, a.isAlpha = false → decide (c.toLower = a) = decide (c = a) :=
    fun _ _ ha => decide_eq_decide.2 (Text.toLower_eq_iff ha)
  have hne : ∀ a c : Char, a.isAlpha = false → decide (c.toLower ≠ a) = decide (c ≠ a) :=
    fun _ _ ha => decide_eq_decide.2 (not_congr (Text.toLower_eq_iff ha))
  have hreverse : ∀ t : Text, (Text.lowerAscii t).reverse = Text.lowerAscii t.reverse :=
    fun _ => List.map_reverse.symm
  have hbase : (baseName (Text.lowerAscii p)).reverse = Text.lowerAscii (baseName p).reverse := by
    unfold baseName
    rw [hreverse, Text.takeWhile_lowerAscii (fun c => hne '/' c rfl), List.reverse_reverse,
      List.reverse_reverse]
  unfold extension
  dsimp only
  rw [hbase, Text.dropWhile_lowerAscii (fun c => hne '.' c rfl),
    Text.takeWhile_lowerAscii (fun c => hne '.' c rfl), hreverse]
  cases (baseName p).reverse.dropWhile (· ≠ '.') with
  | nil => rfl
  | cons c stem =>
    have hall : (Text.lowerAscii stem).all (· = '.') = stem.all (· = '.') :=
      Text.all_lowerAscii (fun c => heq '.' c rfl) stem
    show (if (Text.lowerAscii stem).all (· = '.') then [] else _) = _
    rw [hall]
    dsimp only
    split <;> rfl

end Path

namespace Extension

/-! ## Words and their spellings -/

def isSeparator (c : Char) : Bool := c = ',' || Text.isBlank c

structure IsWord (w : Text) : Prop where
  nonempty : w ≠ []
  characters : ∀ c ∈ w, c.toNat < 0x80 ∧ isSeparator c = false

instance (w : Text) : Decidable (IsWord w) :=
  decidable_of_iff (w ≠ [] ∧ w.all (fun c => decide (c.toNat < 0x80 ∧ isSeparator c = false)) = true)
    ⟨fun h => ⟨h.1, by simpa using h.2⟩, fun h => ⟨h.1, by simpa using h.2⟩⟩

def IsPadded (w t : Text) : Prop :=
  ∃ before after, Text.allBlank before = true ∧ Text.allBlank after = true ∧
    t = before ++ w ++ after

/-- A text of words with one or more separators between each two of them. -/
inductive Joins : List Text → Text → Prop where
  | nil : Joins [] []
  | single (w : Text) : Joins [w] w
  | cons {w between next rest : Text} {ws : List Text} (nonempty : between ≠ [])
      (separators : ∀ c ∈ between, isSeparator c = true) (joins : Joins (next :: ws) rest) :
      Joins (w :: next :: ws) (w ++ between ++ rest)

def dotted (e : Text) : Text := if e.head? = some '.' then e else '.' :: e

/-- The extension that a word names: the word in lower case, with a dot if it has none. -/
def canonical (w : Text) : Text := dotted (Text.lowerAscii w)

theorem IsWord.isBlank_eq_false {w : Text} (hw : IsWord w) : ∀ c ∈ w, Text.isBlank c = false :=
  fun c hc => (Bool.or_eq_false_iff.1 (hw.characters c hc).2).2

theorem isSeparator_toLower (c : Char) : isSeparator c.toLower = isSeparator c :=
  Text.toLower_congr (by decide +kernel) c

theorem isWord_lowerAscii {w : Text} : IsWord (Text.lowerAscii w) ↔ IsWord w := by
  have hcharacters : (∀ c ∈ Text.lowerAscii w, c.toNat < 0x80 ∧ isSeparator c = false) ↔
      ∀ c ∈ w, c.toNat < 0x80 ∧ isSeparator c = false := by
    simp [Text.lowerAscii, Text.lt_toLower_iff, isSeparator_toLower]
  have hnonempty : Text.lowerAscii w ≠ [] ↔ w ≠ [] := by simp [Text.lowerAscii]
  exact ⟨fun h => ⟨hnonempty.1 h.1, hcharacters.1 h.2⟩,
    fun h => ⟨hnonempty.2 h.1, hcharacters.2 h.2⟩⟩

theorem IsWord.congr {v w : Text} (hw : IsWord w) (h : Text.SameButCase w v) : IsWord v := by
  rw [← isWord_lowerAscii, ← h, isWord_lowerAscii]
  exact hw

/-! ## Canonical extensions -/

theorem canonical_congr {v w : Text} (h : Text.SameButCase v w) : canonical v = canonical w :=
  congrArg dotted h

theorem map_canonical_congr {vs ws : List Text} (h : List.Forall₂ Text.SameButCase vs ws) :
    vs.map canonical = ws.map canonical := by
  induction h with
  | nil => rfl
  | cons hsame _ ih => rw [List.map_cons, List.map_cons, canonical_congr hsame, ih]

theorem isWord_canonical {w : Text} (hw : IsWord w) : IsWord (canonical w) := by
  have hlower := isWord_lowerAscii.2 hw
  unfold canonical dotted
  split
  · exact hlower
  · exact ⟨List.cons_ne_nil _ _, List.forall_mem_cons.2 ⟨by decide, hlower.characters⟩⟩

theorem lowerAscii_dotted (e : Text) :
    Text.lowerAscii (dotted e) = dotted (Text.lowerAscii e) := by
  have hhead : (Text.lowerAscii e).head? = some '.' ↔ e.head? = some '.' := by
    cases e with
    | nil => rfl
    | cons c e =>
      have hdot : c.toLower = '.' ↔ c = '.' := Text.toLower_eq_iff rfl
      simp [Text.lowerAscii, hdot]
  unfold dotted
  simp only [hhead]
  split <;> rfl

theorem dotted_dotted (e : Text) : dotted (dotted e) = dotted e := by
  unfold dotted
  split <;> simp_all

theorem canonical_canonical (w : Text) : canonical (canonical w) = canonical w := by
  unfold canonical
  rw [lowerAscii_dotted, Text.lowerAscii_lowerAscii, dotted_dotted]

theorem normal?_eq (t : Text) : normal? t =
    if Text.lower (Text.trim t) = [] then none else some (dotted (Text.lower (Text.trim t))) := by
  unfold normal?
  generalize Text.lower (Text.trim t) = e
  match e with
  | [] => rfl
  | c :: rest =>
    by_cases hc : c = '.'
    · subst hc
      rfl
    · simp [dotted, hc]

theorem normal?_of_isPadded {w t : Text} (hw : IsWord w) (h : IsPadded w t) :
    normal? t = some (canonical w) := by
  obtain ⟨before, after, hbefore, hafter, rfl⟩ := h
  have htrim : Text.trim (before ++ w ++ after) = w :=
    Text.trim_padded hw.isBlank_eq_false hw.nonempty (List.all_eq_true.1 hbefore)
      (List.all_eq_true.1 hafter)
  have hlower : Text.lower w = Text.lowerAscii w :=
    Text.lower_of_ascii fun c hc => (hw.characters c hc).1
  rw [normal?_eq, htrim, hlower, if_neg (isWord_lowerAscii.2 hw).nonempty, canonical]

/-! ## What a setting spells -/

theorem isPadded_refl (w : Text) : IsPadded w w := ⟨[], [], rfl, rfl, by simp⟩

theorem filterMap_normal? {ws texts : List Text} (hws : ∀ w ∈ ws, IsWord w)
    (h : List.Forall₂ IsPadded ws texts) : texts.filterMap normal? = ws.map canonical := by
  induction h with
  | nil => rfl
  | cons hpadded _ ih =>
    rw [List.forall_mem_cons] at hws
    rw [List.filterMap_cons_some (normal?_of_isPadded hws.1 hpadded), List.map_cons, ih hws.2]

def blanked (t : Text) : Text := t.map fun c => if c = ',' then ' ' else c

theorem blanked_append (s t : Text) : blanked (s ++ t) = blanked s ++ blanked t :=
  List.map_append

theorem blanked_of_isWord {w : Text} (hw : IsWord w) : blanked w = w := by
  have hself : ∀ c ∈ w, (if c = ',' then ' ' else c) = c := by
    intro c hc
    have hcomma : decide (c = ',') = false := (Bool.or_eq_false_iff.1 (hw.characters c hc).2).1
    exact if_neg (of_decide_eq_false hcomma)
  exact (List.map_congr_left hself).trans (List.map_id w)

theorem isBlank_of_mem_blanked {t : Text} (h : ∀ c ∈ t, isSeparator c = true) :
    ∀ c ∈ blanked t, Text.isBlank c = true := by
  unfold blanked
  rw [List.forall_mem_map]
  intro c hc
  by_cases hcomma : c = ','
  · rw [if_pos hcomma]
    rfl
  · have hseparator := h c hc
    unfold isSeparator at hseparator
    rw [if_neg hcomma]
    simpa [hcomma] using hseparator

theorem split_of_joins {ws : List Text} {t : Text} (hws : ∀ w ∈ ws, IsWord w) (h : Joins ws t) :
    split t = ws := by
  show Text.words (blanked t) = ws
  induction h with
  | nil => rfl
  | single w =>
    have hw := hws w List.mem_cons_self
    have hwords := Text.words_word_append hw.isBlank_eq_false hw.nonempty (t := []) nofun
    rw [List.append_nil] at hwords
    rw [blanked_of_isWord hw, hwords]
    rfl
  | @cons w between next rest ws nonempty separators joins ih =>
    rw [List.forall_mem_cons] at hws
    have hblanks := isBlank_of_mem_blanked separators
    have hhead : ∀ c ∈ (blanked between ++ blanked rest).head?, Text.isBlank c = true := by
      intro c hc
      rw [List.head?_append_of_ne_nil _ (by simpa [blanked] using nonempty)] at hc
      exact hblanks c (List.mem_of_mem_head? hc)
    have hsplit : blanked (w ++ between ++ rest) = w ++ (blanked between ++ blanked rest) := by
      rw [List.append_assoc, blanked_append, blanked_append, blanked_of_isWord hws.1]
    rw [hsplit, Text.words_word_append hws.1.isBlank_eq_false hws.1.nonempty hhead,
      Text.words_blanks_append hblanks, ih hws.2]

theorem ofSetting_list {ws texts : List Text} (hws : ∀ w ∈ ws, IsWord w)
    (h : List.Forall₂ IsPadded ws texts) :
    ofSetting (some (.list (texts.map Value.ofText))) = .ok (ws.map canonical) := by
  have htexts : (texts.map Value.ofText).mapM Value.toText = .ok texts := by
    have h : texts.mapM (Value.toText ∘ Value.ofText) = .ok (texts.map id) :=
      mapM_eq_ok_iff.2 fun _ _ => rfl
    rwa [← List.mapM_map, List.map_id] at h
  show (do return (← (texts.map Value.ofText).mapM Value.toText).filterMap normal?) = _
  rw [htexts, ← filterMap_normal? hws h]
  rfl

theorem ofSetting_text {ws : List Text} {t : Text} (hws : ∀ w ∈ ws, IsWord w) (h : Joins ws t) :
    ofSetting (some (.ofText t)) = .ok (ws.map canonical) := by
  show Except.ok ((split t).filterMap normal?) = _
  rw [split_of_joins hws h, filterMap_normal? hws]
  exact List.forall₂_same.2 fun w _ => isPadded_refl w

end Extension

namespace Layers

def without (l : Layers) (s : Setting) : Layers where
  environment name := if name = s.environmentName then none else l.environment name
  file := l.file.keep fun key => !key.isSameKey (.text s.key)

/-- The layers spell out the words for the extensions: as a list in the file with the variable not
set, or as the value of the variable. -/
inductive Spells (l : Layers) (ws : List Text) : Prop where
  | list {texts : List Text}
      (unset : l.environment (Setting.environmentName .extensions) = none)
      (listed : l.file.get? (Setting.key .extensions) = some (.list (texts.map Value.ofText)))
      (padded : List.Forall₂ Extension.IsPadded ws texts)
  | text {t : Text} (set : l.environment (Setting.environmentName .extensions) = some t)
      (joins : Extension.Joins ws t)

theorem value?_without (l : Layers) (s r : Setting) :
    (l.without s).value? r = if r = s then none else l.value? r := by
  unfold value? without
  dsimp only
  rw [Mapping.get?_keep]
  by_cases hrs : r = s
  · subst hrs
    rw [if_pos rfl, if_pos rfl, if_neg (by simp [Setting.isSameKey_key_iff])]
  · have hname : r.environmentName ≠ s.environmentName :=
      fun hname => hrs (Setting.environmentName_injective hname)
    have hkey : (Scalar.text r.key).isSameKey (.text s.key) = false :=
      Bool.eq_false_iff.2 (mt Setting.isSameKey_key_iff.1 hrs)
    rw [if_neg hname, if_neg hrs, if_pos (by rw [hkey]; rfl)]

end Layers

namespace Settings

variable {l : Layers} {ws : List Text}

theorem outcome_of_spells (h : l.Spells ws) (hws : ∀ w ∈ ws, Extension.IsWord w) :
    outcome l .extensions = .ok (.texts (ws.map Extension.canonical)) := by
  have hread : Extension.ofSetting (l.value? .extensions) = .ok (ws.map Extension.canonical) := by
    cases h with
    | list unset listed padded =>
      rw [Layers.value?_of_environment unset, listed]
      exact Extension.ofSetting_list hws padded
    | text set joins =>
      rw [Layers.value?_of_set set]
      exact Extension.ofSetting_text hws joins
  show (do return Datum.texts (← Extension.ofSetting (l.value? .extensions))) = _
  rw [hread]
  rfl

/-- Extensions that are set take the place of the standard ones, and nothing else is changed. -/
theorem ofLayers_eq_map_without {extensions : List Text}
    (h : outcome l .extensions = .ok (.texts extensions)) :
    ofLayers l = (ofLayers (l.without .extensions)).map fun c => { c with extensions } := by
  have hother : ∀ s ≠ .extensions, outcome l s = outcome (l.without .extensions) s := by
    intro s hs
    apply outcome_congr
    rw [Layers.value?_without, if_neg hs]
  cases hwithout : ofLayers (l.without .extensions) with
  | ok c =>
    apply ofLayers_eq_ok_iff.2
    intro s
    by_cases hs : s = .extensions
    · rw [hs, h]
      rfl
    · rw [hother s hs, ofLayers_eq_ok_iff.1 hwithout s]
      cases s with
      | extensions => exact absurd rfl hs
      | _ => rfl
  | error e =>
    apply ofLayers_eq_error_iff.2
    apply (ofLayers_eq_error_iff.1 hwithout).congr
    intro s e
    by_cases hs : s = .extensions
    · have hnone : (l.without .extensions).value? .extensions = none := by
        rw [Layers.value?_without, if_pos rfl]
      rw [hs, h]
      exact iff_of_false (fun he => not_fails_outcome hnone ⟨e, he⟩) nofun
    · rw [hother s hs]

theorem extensions_of_spells {c : Settings} (h : l.Spells ws)
    (hws : ∀ w ∈ ws, Extension.IsWord w) (hc : ofLayers l = .ok c) :
    c.extensions = ws.map Extension.canonical := by
  have hdatum := ofLayers_eq_ok_iff.1 hc .extensions
  rw [outcome_of_spells h hws] at hdatum
  exact (Datum.texts.inj (Except.ok.inj hdatum)).symm

/-- The case of ASCII letters in a path, and so in its extension, has no influence on whether it is
accepted. -/
theorem accepts_congr {c d : Settings} {p q : Path} (h : c.extensions = d.extensions)
    (hpath : Text.SameButCase p q) : c.accepts p = d.accepts q := by
  have hextension : Text.SameButCase (Path.extension p) (Path.extension q) := by
    unfold Text.SameButCase
    rw [← Path.extension_lowerAscii, hpath, Path.extension_lowerAscii]
  unfold accepts
  rw [h, Text.lower_congr hextension]

/-- However words are spelled out, the settings are those without them but for the extensions, which
are the canonical ones, and spelling out these comes to the same.  The case of letters in the words
and in a path has no influence on whether the path is accepted. -/
theorem ofLayers_spelled (hws : ∀ w ∈ ws, Extension.IsWord w) :
    (∀ l : Layers, l.Spells ws ∨ l.Spells (ws.map Extension.canonical) →
      ofLayers l = (ofLayers (l.without .extensions)).map fun c =>
        { c with extensions := ws.map Extension.canonical }) ∧
      ∀ (vs : List Text) (l k : Layers) (c d : Settings) (p q : Path),
        List.Forall₂ Text.SameButCase ws vs → l.Spells ws → k.Spells vs →
        ofLayers l = .ok c → ofLayers k = .ok d → Text.SameButCase p q →
        c.accepts p = d.accepts q := by
  refine ⟨?_, ?_⟩
  · intro l h
    apply ofLayers_eq_map_without
    cases h with
    | inl h => exact outcome_of_spells h hws
    | inr h =>
      have hwords : ∀ w ∈ ws.map Extension.canonical, Extension.IsWord w :=
        List.forall_mem_map.2 fun w hw => Extension.isWord_canonical (hws w hw)
      have hagain : Extension.canonical ∘ Extension.canonical = Extension.canonical :=
        funext Extension.canonical_canonical
      rw [outcome_of_spells h hwords, List.map_map, hagain]
  · intro vs l k c d p q hcase hl hk hc hd hpath
    have hvs : ∀ v ∈ vs, Extension.IsWord v := by
      intro v hv
      obtain ⟨w, hw, hsame⟩ := exists_of_forall₂ hcase.flip hv
      exact (hws w hw).congr hsame
    apply accepts_congr _ hpath
    rw [extensions_of_spells hl hws hc, extensions_of_spells hk hvs hd,
      Extension.map_canonical_congr hcase]

/-! ## Two spellings -/

namespace Spelled

def words : List Text := ["Ts".toList, ".MTS".toList, "c++".toList]

def otherCase : List Text := ["tS".toList, ".mts".toList, "C++".toList]

def listed : Layers where
  environment _ := none
  file := [(.text "extensions".toList,
    .list (["  Ts".toList, ".MTS\u3000".toList, "c++".toList].map Value.ofText))]

def joined : Layers where
  environment name := if name = Setting.environmentName .extensions then
    some "tS ,,\t.mts,C++".toList else none
  file := []

end Spelled

theorem ofLayers_spelled_mixed :
    (∀ w ∈ Spelled.words, Extension.IsWord w) ∧
      List.Forall₂ Text.SameButCase Spelled.words Spelled.otherCase ∧
      Spelled.listed.Spells Spelled.words ∧ Spelled.joined.Spells Spelled.otherCase ∧
      ofLayers Spelled.listed = (ofLayers (Spelled.listed.without .extensions)).map (fun c =>
        { c with extensions := [".ts".toList, ".mts".toList, ".c++".toList] }) ∧
      ∃ c d, ofLayers Spelled.listed = .ok c ∧ ofLayers Spelled.joined = .ok d ∧
        c.accepts "Σ.ΑΣ/Main.Ts".toList = d.accepts "Σ.ΑΣ/Main.tS".toList ∧
        c.accepts "Σ.ΑΣ/Main.Ts".toList = true := by
  have hwords : ∀ w ∈ Spelled.words, Extension.IsWord w := by decide +kernel
  have hcase : List.Forall₂ Text.SameButCase Spelled.words Spelled.otherCase :=
    .cons (by decide) (.cons (by decide) (.cons (by decide) .nil))
  have hlisted : Spelled.listed.Spells Spelled.words :=
    .list rfl rfl (.cons ⟨"  ".toList, [], rfl, rfl, rfl⟩
      (.cons ⟨[], "\u3000".toList, rfl, rfl, rfl⟩ (.cons ⟨[], [], rfl, rfl, rfl⟩ .nil)))
  have hjoins : Extension.Joins Spelled.otherCase "tS ,,\t.mts,C++".toList := by
    refine .cons (List.cons_ne_nil ' ' ",,\t".toList) (List.all_eq_true.1 rfl) ?_
    exact .cons (List.cons_ne_nil ',' []) (List.all_eq_true.1 rfl) (.single _)
  have hjoined : Spelled.joined.Spells Spelled.otherCase := .text rfl hjoins
  obtain ⟨c, hc⟩ : ∃ c, ofLayers Spelled.listed = .ok c := ⟨_, rfl⟩
  obtain ⟨d, hd⟩ : ∃ d, ofLayers Spelled.joined = .ok d := ⟨_, rfl⟩
  have haccepted : c.accepts "Σ.ΑΣ/Main.Ts".toList = true := by
    unfold accepts
    rw [extensions_of_spells hlisted hwords hc]
    decide +kernel
  have hpath : Text.SameButCase "Σ.ΑΣ/Main.Ts".toList "Σ.ΑΣ/Main.tS".toList := by decide +kernel
  have hcanonical : Spelled.words.map Extension.canonical =
      [".ts".toList, ".mts".toList, ".c++".toList] := by decide
  obtain ⟨hsettings, haccepts⟩ := ofLayers_spelled hwords
  rw [hcanonical] at hsettings
  exact ⟨hwords, hcase, hlisted, hjoined, hsettings _ (.inl hlisted), c, d, hc, hd,
    haccepts _ _ _ _ _ _ _ hcase hlisted hjoined hc hd hpath, haccepted⟩

end Settings
end ChangePairs
