import ChangePairs.Proofs.Url.Form
import ChangePairs.StudioLink

/-!
Links that open the studio.  A link is made of the address of the studio and three values, and it
comes apart into just these: the address is found again without its query and fragment
(`Url.split?_linkTo`), and the query holds the values.

There are two main statements.  `studioLink_opens` says when there is a link and what is read from
it at the other end.  `studioLink_link` says that a link will do for the address of the studio: the
values in it are replaced.
-/

namespace ChangePairs

/-! ## The parts of a link -/

theorem Url.isScheme_of_isStudio {u : Url} (h : u.isStudio = true) : Url.IsScheme u.scheme := by
  unfold Url.isStudio at h
  rw [Bool.and_eq_true, Bool.or_eq_true, decide_eq_true_iff, decide_eq_true_iff] at h
  rcases h.1 with hscheme | hscheme
  · rw [hscheme]
    exact ⟨⟨'h', "ttp".toList, rfl, by decide⟩, by decide⟩
  · rw [hscheme]
    exact ⟨⟨'h', "ttps".toList, rfl, by decide⟩, by decide⟩

theorem Url.isWhole_of_isStudio {address : Text} {u : Url} (hsplit : Url.split? address = some u)
    (h : u.isStudio = true) : u.IsWhole := by
  have hauthority : u.authority ≠ [] := by
    unfold Url.isStudio at h
    rw [Bool.and_eq_true] at h
    simpa using h.2
  exact Url.isWhole_of_split? hsplit (Url.isScheme_of_isStudio h) hauthority

/-- The parts of the link to a target in the studio with the parts `u`. -/
def Url.linkTo (u : Url) (target : StudioTarget) : Url :=
  { u with query := Form.encode target.parameters, fragment := [] }

theorem studioLink?_eq_some_iff {address link : Text} {target : StudioTarget} :
    studioLink? address target = some link ↔
      ∃ u, Url.split? address = some u ∧ u.isStudio = true ∧ (u.linkTo target).text = link := by
  unfold studioLink?
  cases Url.split? address with
  | none => simp
  | some u =>
    by_cases h : u.isStudio = true
    · simp [h, Url.linkTo]
    · simp [h]

/-- A link comes apart into the parts that it was made of. -/
theorem Url.split?_linkTo {address : Text} {u : Url} (hsplit : Url.split? address = some u)
    (h : u.isStudio = true) (target : StudioTarget) :
    Url.split? (u.linkTo target).text = some (u.linkTo target) := by
  have hwhole := Url.isWhole_of_isStudio hsplit h
  refine Url.split?_text { hwhole with query_fragment := ?_, counted := ?_ }
  · exact Form.notMem_encode rfl (by decide) (by decide) _
  · have hcounted := hwhole.counted
    simp only [List.forall_mem_append] at hcounted
    obtain ⟨⟨⟨hauthority, hpath⟩, -⟩, -⟩ := hcounted
    have hquery : ∀ c ∈ Form.encode target.parameters, Url.isIgnored c = false := by
      intro c hc
      rw [Bool.eq_false_iff]
      intro hignored
      simp only [Url.isIgnored, Bool.or_eq_true, decide_eq_true_eq] at hignored
      rcases hignored with (rfl | rfl) | rfl <;>
        exact Form.notMem_encode rfl (by decide) (by decide) _ hc
    simp only [List.forall_mem_append]
    exact ⟨⟨⟨hauthority, hpath⟩, hquery⟩, by simp [Url.linkTo]⟩

/-! ## What a link opens -/

theorem Url.isStudio_eq_false_iff {u : Url} :
    u.isStudio = false ↔
      (u.scheme ≠ "http".toList ∧ u.scheme ≠ "https".toList) ∨ u.authority = [] := by
  unfold Url.isStudio
  rw [Bool.and_eq_false_iff, Bool.or_eq_false_iff, decide_eq_false_iff_not,
    decide_eq_false_iff_not, Bool.not_eq_false', List.isEmpty_iff]

theorem studioLink?_eq_none_iff {address : Text} {target : StudioTarget} :
    studioLink? address target = none ↔
      Url.split? address = none ∨ ∃ u, Url.split? address = some u ∧ u.isStudio = false := by
  unfold studioLink?
  cases Url.split? address with
  | none => simp
  | some u => cases h : u.isStudio <;> simp [h]

/-- What is read from the parts of a link at the other end: the studio, without the query and the
fragment that its address may have, and the values by their names. -/
structure Url.IsLinkTo (v u : Url) (target : StudioTarget) : Prop where
  scheme : v.scheme = u.scheme
  authority : v.authority = u.authority
  path : v.path = u.path
  fragment : v.fragment = []
  parameters : Form.decode v.query =
    [("engine".toList, target.engine), ("diffId".toList, target.diffId), ("iv".toList, target.iv),
      ("command".toList, "learn".toList)]

theorem Url.isLinkTo_linkTo (u : Url) (target : StudioTarget) :
    (u.linkTo target).IsLinkTo u target :=
  ⟨rfl, rfl, rfl, rfl, Form.decode_encode _⟩

theorem Url.IsLinkTo.unique {u u' v : Url} {target other : StudioTarget}
    (h : v.IsLinkTo u target) (h' : v.IsLinkTo u' other) : other = target := by
  have hparameters := h'.parameters
  rw [h.parameters] at hparameters
  obtain ⟨engine, diffId, iv⟩ := target
  obtain ⟨engine', diffId', iv'⟩ := other
  simp only [List.cons.injEq, Prod.mk.injEq, true_and, and_true] at hparameters
  obtain ⟨rfl, rfl, rfl⟩ := hparameters
  rfl

/-- There is a link unless the address is empty, is malformed, or has another scheme or no
authority.  It opens the studio on the target, and so no other target has the same link. -/
theorem studioLink_opens (address : Text) (target : StudioTarget) :
    (studioLink? address target = none ↔
      address = [] ∨ Url.split? address = none ∨
        ∃ u, Url.split? address = some u ∧
          ((u.scheme ≠ "http".toList ∧ u.scheme ≠ "https".toList) ∨ u.authority = [])) ∧
      ∀ link, studioLink? address target = some link →
        (∃ u v, Url.split? address = some u ∧ Url.split? link = some v ∧ v.IsLinkTo u target) ∧
          ∀ other, studioLink? address other = some link → other = target := by
  constructor
  · rw [studioLink?_eq_none_iff]
    simp only [Url.isStudio_eq_false_iff]
    refine (or_iff_right_of_imp ?_).symm
    rintro rfl
    exact .inr ⟨_, rfl, .inr rfl⟩
  · intro link hlink
    obtain ⟨u, hsplit, hstudio, rfl⟩ := studioLink?_eq_some_iff.1 hlink
    have hlinkTo := u.isLinkTo_linkTo target
    have hlink := Url.split?_linkTo hsplit hstudio target
    refine ⟨⟨u, _, hsplit, hlink, hlinkTo⟩, ?_⟩
    intro other hother
    obtain ⟨u', hsplit', hstudio', hsame⟩ := studioLink?_eq_some_iff.1 hother
    -- One link has only one set of parts, and only one target is read from them.
    rw [← hsame, Url.split?_linkTo hsplit' hstudio' other] at hlink
    have hother := u'.isLinkTo_linkTo other
    rw [Option.some.inj hlink] at hother
    exact hlinkTo.unique hother

namespace Dressed

/-- Brackets in the name of the user and around the host, ignored characters in most parts, a
capital in the scheme, and a query and a fragment. -/
def address : Text := "\x00 hT\ntps://[a]@[::FFFF]\t:x/é b\r/[%?/old=1&x#y?z".toList

def target : StudioTarget := ⟨"a&b=c%d+e#f".toList, "é 😀\n".toList, []⟩

def link : Text :=
  "https://[a]@[::FFFF]:x/é b/[%?engine=a%26b%3Dc%25d%2Be%23f&".toList ++
    "diffId=%C3%A9+%F0%9F%98%80%0A&iv=&command=learn".toList

theorem studioLink?_eq : studioLink? address target = some link := by decide +kernel

end Dressed

theorem studioLink_opens_dressed :
    studioLink? Dressed.address Dressed.target = some Dressed.link ∧
      (∃ u v, Url.split? Dressed.address = some u ∧ Url.split? Dressed.link = some v ∧
        v.IsLinkTo u Dressed.target) ∧
      ∀ other, studioLink? Dressed.address other = some Dressed.link → other = Dressed.target :=
  ⟨Dressed.studioLink?_eq,
    (studioLink_opens Dressed.address Dressed.target).2 _ Dressed.studioLink?_eq⟩

/-! ## Links made of links -/

/-- The link made of a link is the one made of the address of the studio. -/
theorem studioLink_link {address link : Text} {target : StudioTarget}
    (h : studioLink? address target = some link) (other : StudioTarget) :
    ∃ next, studioLink? link other = some next ∧ studioLink? address other = some next := by
  obtain ⟨u, hsplit, hstudio, rfl⟩ := studioLink?_eq_some_iff.1 h
  refine ⟨(u.linkTo other).text, ?_, studioLink?_eq_some_iff.2 ⟨u, hsplit, hstudio, rfl⟩⟩
  have hlink := Url.split?_linkTo hsplit hstudio target
  exact studioLink?_eq_some_iff.2 ⟨u.linkTo target, hlink, hstudio, rfl⟩

theorem studioLink_link_dressed :
    studioLink? Dressed.address Dressed.target = some Dressed.link ∧
      ∃ next, studioLink? Dressed.link ⟨"x".toList, "&".toList, "=".toList⟩ = some next ∧
        studioLink? Dressed.address ⟨"x".toList, "&".toList, "=".toList⟩ = some next :=
  ⟨Dressed.studioLink?_eq, studioLink_link Dressed.studioLink?_eq _⟩

end ChangePairs
