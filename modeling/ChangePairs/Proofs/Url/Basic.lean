import Mathlib.Data.List.TakeDrop
import Mathlib.Data.List.TakeWhile
import ChangePairs.Proofs.Text.Field
import ChangePairs.Url.Basic

/-!
Addresses put together and taken apart.  `IsWhole` says what the parts of an address are that has a
scheme and an authority: where each of them ends, the mark of the next one stands for the first
time.

The main statement, `split?_text`, says that such parts are found again in the address that they
make up.  The parts of any address with a scheme and an authority are of this kind
(`isWhole_of_split?`), so an address is put together in one way only, however it was written.
-/

namespace ChangePairs
namespace Url

/-! ## Marks -/

theorem cut_append {mark : Char} {front : Text} (h : mark ∉ front) (back : Text) :
    cut mark (front ++ mark :: back) = (front, back) := by
  have hall := Text.decide_ne_of_not_mem h
  unfold cut
  rw [List.takeWhile_append_of_pos hall, List.dropWhile_append_of_pos hall]
  simp

theorem cut_of_notMem {mark : Char} {t : Text} (h : mark ∉ t) : cut mark t = (t, []) := by
  have hall := Text.decide_ne_of_not_mem h
  unfold cut
  rw [List.takeWhile_eq_self_iff.2 hall, List.dropWhile_eq_nil_iff.2 hall]
  rfl

def marked (mark : Char) (part : Text) : Text := if part.isEmpty then [] else mark :: part

theorem cut_marked {mark : Char} {front : Text} (h : mark ∉ front) (part : Text) :
    cut mark (front ++ marked mark part) = (front, part) := by
  cases part with
  | nil => simpa [marked] using cut_of_notMem h
  | cons c part => exact cut_append h (c :: part)

theorem cut_fst_isPrefix (mark : Char) (t : Text) : (cut mark t).1 <+: t := List.takeWhile_prefix _

theorem cut_snd_isSuffix (mark : Char) (t : Text) : (cut mark t).2 <:+ t :=
  (List.drop_suffix 1 _).trans (List.dropWhile_suffix _)

theorem mark_notMem_cut (mark : Char) (t : Text) : mark ∉ (cut mark t).1 := by
  intro h
  have hmark := List.mem_takeWhile_imp h
  simp at hmark

theorem text_eq (u : Url) :
    u.text = u.scheme ++ ':' :: '/' :: '/' ::
      (u.authority ++ (u.path ++ marked '?' u.query ++ marked '#' u.fragment)) := by
  simp [text, marked]

/-! ## Parts -/

structure IsScheme (scheme : Text) : Prop where
  spelled : ∃ c name, scheme = c :: name ∧ (c.isAlpha && name.all isSchemeChar) = true
  lower : scheme.map Char.toLower = scheme

/-- The parts of an address with an authority. -/
structure IsWhole (u : Url) : Prop where
  scheme : IsScheme u.scheme
  authority : ∀ c ∈ u.authority, endsAuthority c = false
  proper : isProper u.authority = true
  path : u.path = [] ∨ u.path.head? = some '/'
  path_query : '?' ∉ u.path
  path_fragment : '#' ∉ u.path
  query_fragment : '#' ∉ u.query
  counted : ∀ c ∈ u.authority ++ u.path ++ u.query ++ u.fragment, isIgnored c = false

theorem isSchemeChar_of_isAlpha {c : Char} (h : c.isAlpha = true) : isSchemeChar c = true := by
  simp [isSchemeChar, Char.isAlphanum, h]

theorem IsScheme.all {scheme : Text} (h : IsScheme scheme) :
    ∀ c ∈ scheme, isSchemeChar c = true := by
  obtain ⟨c, name, rfl, hspelled⟩ := h.spelled
  rw [Bool.and_eq_true, List.all_eq_true] at hspelled
  exact List.forall_mem_cons.2 ⟨isSchemeChar_of_isAlpha hspelled.1, hspelled.2⟩

theorem isIgnored_of_isSchemeChar {c : Char} (h : isSchemeChar c = true) : isIgnored c = false := by
  rw [Bool.eq_false_iff]
  intro hignored
  simp only [isIgnored, Bool.or_eq_true, decide_eq_true_eq] at hignored
  rcases hignored with (rfl | rfl) | rfl <;> nomatch h

theorem splitScheme_append {scheme : Text} (h : IsScheme scheme) (rest : Text) :
    splitScheme (scheme ++ ':' :: rest) = (scheme, rest) := by
  have hcolon : ':' ∉ scheme := fun hmem => nomatch h.all _ hmem
  have hall := Text.decide_ne_of_not_mem hcolon
  have hspan : (scheme ++ ':' :: rest).span (· ≠ ':') = (scheme, ':' :: rest) := by
    rw [List.span_eq_takeWhile_dropWhile, List.takeWhile_append_of_pos hall,
      List.dropWhile_append_of_pos hall]
    simp
  obtain ⟨c, name, rfl, hspelled⟩ := h.spelled
  unfold splitScheme
  rw [hspan]
  exact (if_pos hspelled).trans (by rw [h.lower])

theorem splitAuthority_append {authority rest : Text}
    (h : ∀ c ∈ authority, endsAuthority c = false)
    (hrest : ∀ c, rest.head? = some c → endsAuthority c = true) :
    splitAuthority ('/' :: '/' :: (authority ++ rest)) = (authority, rest) := by
  have hall : ∀ c ∈ authority, (!endsAuthority c) = true := by
    intro c hc
    rw [h c hc]
    rfl
  show (authority ++ rest).span (fun c => !endsAuthority c) = _
  rw [List.span_eq_takeWhile_dropWhile, List.takeWhile_append_of_pos hall,
    List.dropWhile_append_of_pos hall]
  cases rest with
  | nil => simp
  | cons c rest => simp [hrest c rfl]

theorem significant_of_head? {t : Text} {c : Char} (hhead : t.head? = some c) (hc : 0x20 < c.toNat)
    (h : ∀ c ∈ t, isIgnored c = false) : significant t = t := by
  obtain ⟨rest, rfl⟩ := List.head?_eq_some_iff.1 hhead
  unfold significant
  rw [List.dropWhile_cons_of_neg (by simpa using hc), List.filter_eq_self]
  intro d hd
  rw [h d hd]
  rfl

/-! ## Put together -/

theorem lt_toNat_of_isAlpha {c : Char} (h : c.isAlpha = true) : 0x20 < c.toNat := by
  rcases Bool.or_eq_true_iff.1 h with hupper | hlower
  · have hlow : 65 ≤ c.toNat := UInt32.le_iff_toNat_le.1 (of_decide_eq_true hupper).1
    omega
  · have hlow : 97 ≤ c.toNat :=
      UInt32.le_iff_toNat_le.1 (of_decide_eq_true (Bool.and_eq_true_iff.1 hlower).1)
    omega

theorem isIgnored_of_mem_marked {mark : Char} (hmark : isIgnored mark = false) {part : Text}
    (h : ∀ c ∈ part, isIgnored c = false) : ∀ c ∈ marked mark part, isIgnored c = false := by
  unfold marked
  split
  · simp
  · exact List.forall_mem_cons.2 ⟨hmark, h⟩

theorem significant_text {u : Url} (h : u.IsWhole) : significant u.text = u.text := by
  obtain ⟨c, name, hscheme, hspelled⟩ := h.scheme.spelled
  have hhead : u.text.head? = some c := by
    rw [text_eq, hscheme]
    rfl
  refine significant_of_head? hhead (lt_toNat_of_isAlpha (Bool.and_eq_true_iff.1 hspelled).1) ?_
  have hparts := h.counted
  simp only [List.forall_mem_append] at hparts
  obtain ⟨⟨⟨hauthority, hpath⟩, hquery⟩, hfragment⟩ := hparts
  rw [text_eq]
  simp only [List.forall_mem_append, List.forall_mem_cons]
  exact ⟨fun c hc => isIgnored_of_isSchemeChar (h.scheme.all c hc), rfl, rfl, rfl, hauthority,
    ⟨hpath, isIgnored_of_mem_marked rfl hquery⟩, isIgnored_of_mem_marked rfl hfragment⟩

/-- What follows an authority begins with a character that ends it. -/
theorem endsAuthority_of_head? {u : Url} (h : u.IsWhole) {c : Char}
    (hc : (u.path ++ marked '?' u.query ++ marked '#' u.fragment).head? = some c) :
    endsAuthority c = true := by
  have hmarked : ∀ (mark : Char) (part : Text) (c : Char),
      (marked mark part).head? = some c → c = mark := by
    intro mark part c hc
    unfold marked at hc
    split at hc
    · nomatch hc
    · exact (Option.some.inj hc).symm
  rw [List.head?_append, List.head?_append, Option.or_eq_some_iff, Option.or_eq_some_iff] at hc
  rcases hc with (hpath | ⟨-, hquery⟩) | ⟨-, hfragment⟩
  · rcases h.path with hnil | hslash
    · rw [hnil] at hpath
      nomatch hpath
    · obtain rfl := Option.some.inj (hslash.symm.trans hpath)
      rfl
  · rw [hmarked _ _ _ hquery]
    rfl
  · rw [hmarked _ _ _ hfragment]
    rfl

/-- The parts of an address are found again in its text. -/
theorem split?_text {u : Url} (h : u.IsWhole) : split? u.text = some u := by
  have hfront : '#' ∉ u.path ++ marked '?' u.query := by
    have hquery : '#' ∉ marked '?' u.query := by
      unfold marked
      split
      · simp
      · simpa using h.query_fragment
    simpa [List.mem_append] using ⟨h.path_fragment, hquery⟩
  unfold split?
  rw [significant_text h, text_eq, splitScheme_append h.scheme]
  dsimp only
  rw [splitAuthority_append h.authority fun c => endsAuthority_of_head? h]
  dsimp only
  rw [cut_marked hfront]
  dsimp only
  rw [cut_marked h.path_query]
  exact if_pos h.proper

/-! ## Taken apart -/

theorem isIgnored_of_mem_significant {t : Text} {c : Char} (h : c ∈ significant t) :
    isIgnored c = false := by
  unfold significant at h
  simpa using (List.mem_filter.1 h).2

theorem splitScheme_isSuffix (t : Text) : (splitScheme t).2 <:+ t := by
  unfold splitScheme
  split
  · next c name rest hspan =>
    rw [List.span_eq_takeWhile_dropWhile, Prod.mk.injEq] at hspan
    split
    · have hrest : ':' :: rest <:+ t := hspan.2 ▸ List.dropWhile_suffix _
      exact (List.suffix_cons ':' rest).trans hrest
    · exact List.suffix_rfl
  · exact List.suffix_rfl

/-- The characters of an authority, of which there are any, and what follows them. -/
theorem splitAuthority_spec {t : Text} (h : (splitAuthority t).1 ≠ []) :
    (splitAuthority t).1 ++ (splitAuthority t).2 <:+ t ∧
      (∀ c ∈ (splitAuthority t).1, endsAuthority c = false) ∧
      ∀ c, (splitAuthority t).2.head? = some c → endsAuthority c = true := by
  unfold splitAuthority at h ⊢
  split at h
  · next rest =>
    rw [List.span_eq_takeWhile_dropWhile]
    refine ⟨?_, ?_, ?_⟩
    · rw [List.takeWhile_append_dropWhile]
      exact (List.suffix_cons '/' rest).trans (List.suffix_cons '/' _)
    · intro c hc
      simpa using List.mem_takeWhile_imp hc
    · intro c hc
      have hhead := List.head?_dropWhile_not (fun c => !endsAuthority c) rest
      rw [hc] at hhead
      simpa using hhead
  · exact absurd rfl h

/-- Between an authority and the next mark there is nothing or a path with a slash in front. -/
theorem path_of_head? {rest : Text} (h : ∀ c, rest.head? = some c → endsAuthority c = true) :
    (cut '?' (cut '#' rest).1).1 = [] ∨ (cut '?' (cut '#' rest).1).1.head? = some '/' := by
  have hpath := cut_fst_isPrefix '?' (cut '#' rest).1
  have hfront := cut_fst_isPrefix '#' rest
  cases hp : (cut '?' (cut '#' rest).1).1 with
  | nil => exact .inl rfl
  | cons c more =>
    right
    have hmem : c ∈ (cut '?' (cut '#' rest).1).1 := hp ▸ List.mem_cons_self
    have hhead : rest.head? = some c := by
      obtain ⟨back, hback⟩ := hpath.trans hfront
      rw [← hback, hp]
      rfl
    have hends := h c hhead
    have hquery : c ≠ '?' := by
      rintro rfl
      exact mark_notMem_cut '?' _ hmem
    have hfragment : c ≠ '#' := by
      rintro rfl
      exact mark_notMem_cut '#' _ (hpath.subset hmem)
    simpa [endsAuthority, hquery, hfragment] using hends

theorem split?_eq (t : Text) :
    split? t =
      let first := splitScheme (significant t)
      let second := splitAuthority first.2
      let third := cut '#' second.2
      let fourth := cut '?' third.1
      if isProper second.1 then some ⟨first.1, second.1, fourth.1, fourth.2, third.2⟩ else none :=
  rfl

/-- The parts of an address with a scheme and an authority. -/
theorem isWhole_of_split? {t : Text} {u : Url} (h : split? t = some u) (hscheme : IsScheme u.scheme)
    (hauthority : u.authority ≠ []) : u.IsWhole := by
  rw [split?_eq] at h
  dsimp only at h
  split at h
  · next hproper =>
    obtain rfl := Option.some.inj h
    dsimp only at hscheme hauthority ⊢
    obtain ⟨hsuffix, hends, hhead⟩ := splitAuthority_spec hauthority
    have hcounted := hsuffix.trans (splitScheme_isSuffix (significant t))
    generalize splitAuthority (splitScheme (significant t)).2 = second at *
    have hpath := cut_fst_isPrefix '?' (cut '#' second.2).1
    have hquery := cut_snd_isSuffix '?' (cut '#' second.2).1
    have hfront := cut_fst_isPrefix '#' second.2
    have hfragment := cut_snd_isSuffix '#' second.2
    refine ⟨hscheme, hends, hproper, path_of_head? hhead, mark_notMem_cut '?' _,
      fun hmem => mark_notMem_cut '#' _ (hpath.subset hmem),
      fun hmem => mark_notMem_cut '#' _ (hquery.subset hmem), ?_⟩
    simp only [List.forall_mem_append]
    have hrest : ∀ c ∈ second.2, isIgnored c = false := fun c hc =>
      isIgnored_of_mem_significant (hcounted.subset (List.mem_append_right _ hc))
    exact ⟨⟨⟨fun c hc => isIgnored_of_mem_significant (hcounted.subset (List.mem_append_left _ hc)),
      fun c hc => hrest c (hfront.subset (hpath.subset hc))⟩,
      fun c hc => hrest c (hfront.subset (hquery.subset hc))⟩,
      fun c hc => hrest c (hfragment.subset hc)⟩
  · nomatch h

end Url
end ChangePairs
