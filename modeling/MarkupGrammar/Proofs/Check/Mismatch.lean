import MarkupGrammar.Proofs.Check.Balance
import MarkupGrammar.Proofs.Check.Tree

/-!
# Which tag is the mismatch

When a document does not parse, the author is shown one tag, and that has to be the right one. Each
closing tag cancels the latest opening tag of its name before it that is not cancelled yet. The
mismatch is the first closing tag that finds nothing to cancel, and when there is none, the first
opening tag that is never cancelled.

The search goes through the tags once and keeps lists of tags. The specification speaks of places:
which opening tag a closing tag cancels depends only on what is cancelled before it, so it is
defined by recursion on the place (`Balance.Cancelled`). The two are joined by what the lists
contain after each tag (`Balance.lists_unmatched`): the tags at the places in question, the latest
first.

Names do not meddle with each other, so the tags of each name can be searched by themselves
(`Balance.ofName_foldl_step`), and there all that matters is how many are open. That gives the
condition for there to be no mismatch, in which nothing is cancelled.

## Main definitions

* `Balance.Cancels` — the closing tag at one place cancels the opening tag at another
* `Balance.IsOrphan`, `Balance.IsUnclosed` — the tags that have no counterpart
* `Balance.IsBalanced` — what it takes for the tags of one name to have counterparts

## Main results

* `Balance.lists_unmatched` — the lists of the search and the places of the specification
* `Balance.mismatch?_eq_none_iff` — there is no mismatch when every name is balanced
* `Balance.mismatch_ofText` — which tag is the mismatch
-/

namespace MarkupGrammar

namespace Balance

/-! ### Places -/

/-- Among the first tags there is an opening tag at a place, and it is not among those that are
done with. -/
def IsFree (tags : List Tag) (done : Nat → Prop) (n i : Nat) (opening : Tag) : Prop :=
  i < n ∧ tags[i]? = some opening ∧ opening.kind = .opening ∧ ¬ done i

/-- There is a closing tag at a place, and of the opening tags of its name before it that are not
done with the latest is at another place. -/
def Takes (tags : List Tag) (done : Nat → Prop) (n i : Nat) : Prop :=
  ∃ closing opening, tags[n]? = some closing ∧ closing.kind = .closing ∧
    IsFree tags done n i opening ∧ opening.name = closing.name ∧
    ∀ k other, IsFree tags done n k other → other.name = closing.name → k ≤ i

/-- The opening tag at a place is cancelled by one of the first closing tags. -/
def Cancelled (tags : List Tag) : Nat → Nat → Prop
  | 0, _ => False
  | n + 1, i => Cancelled tags n i ∨ Takes tags (Cancelled tags n) n i

/-- The closing tag at one place cancels the opening tag at another. -/
def Cancels (tags : List Tag) (j i : Nat) : Prop := Takes tags (Cancelled tags j) j i

/-- A closing tag that finds nothing to cancel. -/
def IsOrphan (tags : List Tag) (j : Nat) (closing : Tag) : Prop :=
  tags[j]? = some closing ∧ closing.kind = .closing ∧ ∀ i, ¬ Cancels tags j i

/-- An opening tag that is never cancelled. -/
def IsUnclosed (tags : List Tag) (i : Nat) (opening : Tag) : Prop :=
  tags[i]? = some opening ∧ opening.kind = .opening ∧ ∀ j, ¬ Cancels tags j i

/-- The tag at the first of certain places. It is before the tags at all others, in the order of the
tags and by its position in the document. -/
def IsFirst (p : Nat → Tag → Prop) (i : Nat) (tag : Tag) : Prop :=
  p i tag ∧ ∀ k other, p k other → k ≠ i → i < k ∧ tag.position.before other.position = true

variable {tags : List Tag}

theorem cancelled_iff {n i : Nat} : Cancelled tags n i ↔ ∃ j < n, Cancels tags j i := by
  induction n with
  | zero => simp [Cancelled]
  | succ n ih =>
    rw [Cancelled, ih]
    constructor
    · rintro (⟨j, hj, h⟩ | h)
      · exact ⟨j, Nat.lt_succ_of_lt hj, h⟩
      · exact ⟨n, Nat.lt_succ_self n, h⟩
    · rintro ⟨j, hj, h⟩
      rcases Nat.lt_succ_iff_lt_or_eq.mp hj with hj | rfl
      · exact Or.inl ⟨j, hj, h⟩
      · exact Or.inr h

/-- Only a tag at an earlier place is cancelled, and by a closing tag of the document. -/
theorem Cancels.lt {j i : Nat} (h : Cancels tags j i) : i < j ∧ j < tags.length := by
  obtain ⟨closing, opening, hclosing, -, hfree, -⟩ := h
  exact ⟨hfree.1, (List.getElem?_eq_some_iff.mp hclosing).1⟩

theorem lt_of_cancelled {n i : Nat} (h : Cancelled tags n i) : i < n := by
  obtain ⟨j, hj, h⟩ := cancelled_iff.mp h
  exact Nat.lt_trans h.lt.1 hj

/-- A tag is unclosed when it is not cancelled by any of all the tags. -/
theorem isFree_length_iff {i : Nat} {opening : Tag} :
    IsFree tags (Cancelled tags tags.length) tags.length i opening ↔
      IsUnclosed tags i opening := by
  constructor
  · rintro ⟨-, hopening, hkind, hfree⟩
    exact ⟨hopening, hkind, fun j h => hfree (cancelled_iff.mpr ⟨j, h.lt.2, h⟩)⟩
  · rintro ⟨hopening, hkind, hfree⟩
    refine ⟨(List.getElem?_eq_some_iff.mp hopening).1, hopening, hkind, fun h => ?_⟩
    obtain ⟨j, -, h⟩ := cancelled_iff.mp h
    exact hfree j h

/-! ### Lists of places -/

theorem takeBack?_eq_some {name : Text} {opened rest : List Tag}
    (h : takeBack? name opened = some rest) :
    ∃ before tag after, opened = before ++ tag :: after ∧ rest = before ++ after ∧
      tag.name = name ∧ ∀ t ∈ before, t.name ≠ name := by
  induction opened generalizing rest with
  | nil => exact nomatch h
  | cons tag opened ih =>
    rw [takeBack?] at h
    split at h
    · next hname =>
      obtain rfl := Option.some.inj h
      exact ⟨[], tag, opened, rfl, rfl, hname, List.forall_mem_nil _⟩
    · next hname =>
      obtain ⟨rest, hrest, rfl⟩ := Option.map_eq_some_iff.mp h
      obtain ⟨before, found, after, rfl, rfl, hfound, hbefore⟩ := ih hrest
      exact ⟨tag :: before, found, after, rfl, rfl, hfound,
        List.forall_mem_cons.mpr ⟨hname, hbefore⟩⟩

theorem takeBack?_eq_none_iff {name : Text} {opened : List Tag} :
    takeBack? name opened = none ↔ ∀ t ∈ opened, t.name ≠ name := by
  induction opened with
  | nil => simp [takeBack?]
  | cons tag opened ih => by_cases hname : tag.name = name <;> simp [takeBack?, hname, ih]

/-- A list of the tags at certain places, the latest first. -/
def Lists (p : Nat → Tag → Prop) (found : List Tag) : Prop :=
  ∃ places : List (Nat × Tag), found = places.map Prod.snd ∧
    places.Pairwise (fun a b => b.1 < a.1) ∧ ∀ i tag, (i, tag) ∈ places ↔ p i tag

section

variable {p q : Nat → Tag → Prop} {found : List Tag}

theorem Lists.congr (h : Lists p found) (hq : ∀ i tag, q i tag ↔ p i tag) : Lists q found := by
  obtain ⟨places, hfound, hordered, hplaces⟩ := h
  exact ⟨places, hfound, hordered, fun i tag => (hplaces i tag).trans (hq i tag).symm⟩

theorem Lists.nil (hp : ∀ i tag, ¬ p i tag) : Lists p [] :=
  ⟨[], rfl, .nil, fun i tag => iff_of_false List.not_mem_nil (hp i tag)⟩

/-- One more place comes first. -/
theorem Lists.cons (h : Lists p found) {n : Nat} {tag : Tag} (hn : ∀ i other, p i other → i < n)
    (hq : ∀ i other, q i other ↔ i = n ∧ other = tag ∨ p i other) : Lists q (tag :: found) := by
  obtain ⟨places, rfl, hordered, hplaces⟩ := h
  refine ⟨(n, tag) :: places, rfl, List.pairwise_cons.mpr ⟨fun x hx => ?_, hordered⟩, ?_⟩
  · exact hn x.1 x.2 ((hplaces x.1 x.2).mp hx)
  · intro i other
    rw [List.mem_cons, Prod.mk.injEq, hplaces, hq]

/-- Without one of the places those are left that are not it. -/
theorem mem_without_place {later earlier : List (Nat × Tag)} {i : Nat} {tag : Tag}
    (hordered : (later ++ (i, tag) :: earlier).Pairwise fun a b => b.1 < a.1) (x : Nat × Tag) :
    x ∈ later ++ earlier ↔ x ∈ later ++ (i, tag) :: earlier ∧ x.1 ≠ i := by
  obtain ⟨-, hrest, hacross⟩ := List.pairwise_append.mp hordered
  obtain ⟨hearlier, -⟩ := List.pairwise_cons.mp hrest
  have hlater : ∀ x ∈ later, i < x.1 := fun x hx => hacross x hx _ List.mem_cons_self
  rw [List.mem_append, List.mem_append, List.mem_cons]
  constructor
  · rintro (hx | hx)
    · exact ⟨Or.inl hx, Nat.ne_of_gt (hlater x hx)⟩
    · exact ⟨Or.inr (Or.inr hx), Nat.ne_of_lt (hearlier x hx)⟩
  · rintro ⟨hx | rfl | hx, hne⟩
    · exact Or.inl hx
    · exact absurd rfl hne
    · exact Or.inr hx

/-- A tag that is taken back out of a list is the latest of its name, and the others stay. -/
theorem Lists.takeBack (h : Lists p found) {name : Text} {rest : List Tag}
    (hrest : takeBack? name found = some rest) :
    ∃ i tag, p i tag ∧ tag.name = name ∧ (∀ k other, p k other → other.name = name → k ≤ i) ∧
      Lists (fun k other => p k other ∧ k ≠ i) rest := by
  obtain ⟨places, rfl, hordered, hplaces⟩ := h
  obtain ⟨before, tag, after, hsplit, rfl, hname, hbefore⟩ := takeBack?_eq_some hrest
  obtain ⟨later, _, rfl, rfl, htail⟩ := List.map_eq_append_iff.mp hsplit
  obtain ⟨⟨i, _⟩, earlier, rfl, rfl, rfl⟩ := List.map_eq_cons_iff.mp htail
  have hhead := (List.pairwise_cons.mp (List.pairwise_append.mp hordered).2.1).1
  refine ⟨i, _, (hplaces i _).mp (by simp), hname, fun k other hk hother => ?_, later ++ earlier,
    List.map_append.symm, ?_, fun k other => ?_⟩
  · rcases List.mem_append.mp ((hplaces k other).mpr hk) with hmem | hmem
    · exact absurd hother (hbefore other (List.mem_map_of_mem hmem))
    · rcases List.mem_cons.mp hmem with heq | hmem
      · exact Nat.le_of_eq (Prod.mk.inj heq).1
      · exact Nat.le_of_lt (hhead _ hmem)
  · exact hordered.sublist ((List.sublist_cons_self _ earlier).append_left later)
  · exact (mem_without_place hordered (k, other)).trans (and_congr_left' (hplaces k other))

theorem Lists.of_takeBack?_eq_none (h : Lists p found) {name : Text}
    (hnone : takeBack? name found = none) : ∀ i tag, p i tag → tag.name ≠ name := by
  obtain ⟨places, rfl, -, hplaces⟩ := h
  exact fun i tag hp => takeBack?_eq_none_iff.mp hnone tag
    (List.mem_map_of_mem ((hplaces i tag).mpr hp))

/-- The last tag of a list is the one at the first place. -/
theorem Lists.exists_first (h : Lists p found) {tag : Tag} (htag : found.getLast? = some tag) :
    ∃ i, p i tag ∧ ∀ k other, p k other → i ≤ k := by
  obtain ⟨places, rfl, hordered, hplaces⟩ := h
  rw [List.getLast?_map, Option.map_eq_some_iff] at htag
  obtain ⟨⟨i, _⟩, hlast, rfl⟩ := htag
  refine ⟨i, (hplaces i _).mp (List.mem_of_getLast? hlast), fun k other hk => ?_⟩
  obtain ⟨later, rfl⟩ := List.getLast?_eq_some_iff.mp hlast
  rcases List.mem_append.mp ((hplaces k other).mpr hk) with hk | hk
  · exact Nat.le_of_lt ((List.pairwise_append.mp hordered).2.2 _ hk _ List.mem_cons_self)
  · exact Nat.le_of_eq (Prod.mk.inj (List.mem_singleton.mp hk)).1.symm

theorem Lists.eq_nil_iff (h : Lists p found) : found = [] ↔ ∀ i tag, ¬ p i tag := by
  obtain ⟨places, rfl, -, hplaces⟩ := h
  rw [List.map_eq_nil_iff, List.eq_nil_iff_forall_not_mem, Prod.forall]
  exact forall_congr' fun i => forall_congr' fun tag => not_congr (hplaces i tag)

end

/-! ### What the lists of the search are -/

/-- Only a closing tag cancels anything. -/
theorem not_cancels_of_kind {n i : Nat} {tag : Tag} (htag : tags[n]? = some tag)
    (hkind : tag.kind ≠ .closing) : ¬ Cancels tags n i := by
  rintro ⟨closing, opening, hclosing, hclosingKind, -⟩
  obtain rfl := Option.some.inj (htag.symm.trans hclosing)
  exact hkind hclosingKind

theorem not_isOrphan_of_kind {n : Nat} {tag closing : Tag} (htag : tags[n]? = some tag)
    (hkind : tag.kind ≠ .closing) : ¬ IsOrphan tags n closing := by
  rintro ⟨hclosing, hclosingKind, -⟩
  obtain rfl := Option.some.inj (htag.symm.trans hclosing)
  exact hkind hclosingKind

/-- After one more tag, that tag may be free, and what was free is so unless the tag cancels it. -/
theorem isFree_succ_iff {n i : Nat} {opening : Tag} :
    IsFree tags (Cancelled tags (n + 1)) (n + 1) i opening ↔
      (i = n ∧ tags[n]? = some opening ∧ opening.kind = .opening ∨
        IsFree tags (Cancelled tags n) n i opening) ∧ ¬ Cancels tags n i := by
  constructor
  · rintro ⟨hi, hopening, hkind, hfree⟩
    refine ⟨?_, fun h => hfree (Or.inr h)⟩
    rcases Nat.lt_succ_iff_lt_or_eq.mp hi with hi | rfl
    · exact Or.inr ⟨hi, hopening, hkind, fun h => hfree (Or.inl h)⟩
    · exact Or.inl ⟨rfl, hopening, hkind⟩
  · rintro ⟨⟨rfl, hopening, hkind⟩ | ⟨hi, hopening, hkind, hfree⟩, hcancels⟩
    · exact ⟨Nat.lt_succ_self i, hopening, hkind, fun h =>
        h.elim (fun h => Nat.lt_irrefl i (lt_of_cancelled h)) hcancels⟩
    · exact ⟨Nat.lt_succ_of_lt hi, hopening, hkind, fun h => h.elim hfree hcancels⟩

/-- A tag that is no opening tag leaves free what it does not cancel. -/
theorem isFree_succ_iff_of_kind {n i : Nat} {tag opening : Tag} (htag : tags[n]? = some tag)
    (hkind : tag.kind ≠ .opening) :
    IsFree tags (Cancelled tags (n + 1)) (n + 1) i opening ↔
      IsFree tags (Cancelled tags n) n i opening ∧ ¬ Cancels tags n i := by
  rw [isFree_succ_iff]
  refine and_congr_left fun _ => or_iff_right ?_
  rintro ⟨-, hopening, hopeningKind⟩
  obtain rfl := Option.some.inj (htag.symm.trans hopening)
  exact hkind hopeningKind

/-- So the list of free tags stays what it is when one more tag cancels nothing. -/
theorem lists_isFree_succ {n : Nat} {tag : Tag} (htag : tags[n]? = some tag)
    (hkind : tag.kind ≠ .opening) (hcancels : ∀ i, ¬ Cancels tags n i) {openings : List Tag}
    (h : Lists (IsFree tags (Cancelled tags n) n) openings) :
    Lists (IsFree tags (Cancelled tags (n + 1)) (n + 1)) openings :=
  h.congr fun i _ => (isFree_succ_iff_of_kind htag hkind).trans (and_iff_left (hcancels i))

theorem isOrphan_succ_iff {n j : Nat} {closing : Tag} :
    j < n + 1 ∧ IsOrphan tags j closing ↔
      j = n ∧ IsOrphan tags n closing ∨ j < n ∧ IsOrphan tags j closing := by
  rw [Nat.lt_succ_iff_lt_or_eq, or_and_right, or_comm]
  exact or_congr_left (and_congr_right fun h => by rw [h])

/-- The list of orphans stays what it is when one more tag is none. -/
theorem lists_isOrphan_succ {n : Nat} (hn : ∀ closing, ¬ IsOrphan tags n closing)
    {orphans : List Tag} (h : Lists (fun j closing => j < n ∧ IsOrphan tags j closing) orphans) :
    Lists (fun j closing => j < n + 1 ∧ IsOrphan tags j closing) orphans :=
  h.congr fun _ closing => isOrphan_succ_iff.trans (or_iff_right fun h => hn closing h.2)

/-- A closing tag cancels the tag that the search takes back for it, and no other. -/
theorem cancels_iff_of_takeBack? {n : Nat} {tag : Tag} (htag : tags[n]? = some tag)
    (hkind : tag.kind = .closing) {openings rest : List Tag}
    (h : Lists (IsFree tags (Cancelled tags n) n) openings)
    (hrest : takeBack? tag.name openings = some rest) :
    ∃ i, (∀ k, Cancels tags n k ↔ k = i) ∧
      Lists (fun k other => IsFree tags (Cancelled tags n) n k other ∧ k ≠ i) rest := by
  obtain ⟨i, opening, hfree, hname, hlatest, hrest⟩ := h.takeBack hrest
  refine ⟨i, fun k => ⟨?_, ?_⟩, hrest⟩
  · rintro ⟨closing, other, hclosing, -, hother, hotherName, hlast⟩
    obtain rfl := Option.some.inj (htag.symm.trans hclosing)
    exact Nat.le_antisymm (hlatest k other hother hotherName) (hlast i opening hfree hname)
  · rintro rfl
    exact ⟨tag, opening, htag, hkind, hfree, hname, hlatest⟩

/-- A closing tag for which nothing is taken back cancels nothing. -/
theorem not_cancels_of_takeBack? {n : Nat} {tag : Tag} (htag : tags[n]? = some tag)
    {openings : List Tag} (h : Lists (IsFree tags (Cancelled tags n) n) openings)
    (hnone : takeBack? tag.name openings = none) (i : Nat) : ¬ Cancels tags n i := by
  rintro ⟨closing, opening, hclosing, -, hfree, hname, -⟩
  obtain rfl := Option.some.inj (htag.symm.trans hclosing)
  exact h.of_takeBack?_eq_none hnone i opening hfree hname

/-- **One more tag.** The lists are those of the places up to the tag when they were those of the
places before it. -/
theorem lists_step {n : Nat} {tag : Tag} (htag : tags[n]? = some tag) {u : Unmatched}
    (hopenings : Lists (IsFree tags (Cancelled tags n) n) u.openings)
    (horphans : Lists (fun j closing => j < n ∧ IsOrphan tags j closing) u.orphans) :
    Lists (IsFree tags (Cancelled tags (n + 1)) (n + 1)) (step u tag).openings ∧
      Lists (fun j closing => j < n + 1 ∧ IsOrphan tags j closing) (step u tag).orphans := by
  rw [openings_step, orphans_step]
  cases hkind : tag.kind with
  | opening =>
    have hclosing : tag.kind ≠ .closing := by simp [hkind]
    refine ⟨hopenings.cons (fun i other h => h.1) fun i other => ?_,
      lists_isOrphan_succ (fun c => not_isOrphan_of_kind htag hclosing) horphans⟩
    rw [isFree_succ_iff, and_iff_left (not_cancels_of_kind htag hclosing), htag]
    refine or_congr_left (and_congr_right fun _ => ⟨fun h => (Option.some.inj h.1).symm, ?_⟩)
    rintro rfl
    exact ⟨rfl, hkind⟩
  | selfClosing =>
    have hclosing : tag.kind ≠ .closing := by simp [hkind]
    exact ⟨lists_isFree_succ htag (by simp [hkind])
      (fun i => not_cancels_of_kind htag hclosing) hopenings,
      lists_isOrphan_succ (fun c => not_isOrphan_of_kind htag hclosing) horphans⟩
  | closing =>
    have hopening : tag.kind ≠ .opening := by simp [hkind]
    rw [without]
    cases htaken : takeBack? tag.name u.openings with
    | some rest =>
      obtain ⟨i, hcancels, hrest⟩ := cancels_iff_of_takeBack? htag hkind hopenings htaken
      refine ⟨hrest.congr fun k other => ?_, lists_isOrphan_succ (fun c h => ?_) horphans⟩
      · rw [isFree_succ_iff_of_kind htag hopening, hcancels]
      · exact h.2.2 i ((hcancels i).mpr rfl)
    | none =>
      have hcancels := not_cancels_of_takeBack? htag hopenings htaken
      refine ⟨lists_isFree_succ htag hopening hcancels hopenings,
        horphans.cons (fun j c h => h.1) fun j c => ?_⟩
      rw [isOrphan_succ_iff]
      refine or_congr_left (and_congr_right fun _ => ⟨fun h => ?_, ?_⟩)
      · exact (Option.some.inj (htag.symm.trans h.1)).symm
      · rintro rfl
        exact ⟨htag, hkind, hcancels⟩

/-- **What the lists are** after each tag: the opening tags that are not cancelled yet, and the
closing tags that have found nothing to cancel. -/
theorem lists_unmatched (tags : List Tag) {n : Nat} (hn : n ≤ tags.length) :
    Lists (IsFree tags (Cancelled tags n) n) (unmatched (tags.take n)).openings ∧
      Lists (fun j closing => j < n ∧ IsOrphan tags j closing)
        (unmatched (tags.take n)).orphans := by
  induction n with
  | zero =>
    exact ⟨.nil fun i tag h => Nat.not_lt_zero i h.1, .nil fun j tag h => Nat.not_lt_zero j h.1⟩
  | succ n ih =>
    obtain ⟨hopenings, horphans⟩ := ih (Nat.le_of_succ_le hn)
    have htag : tags[n]? = some tags[n] := List.getElem?_eq_getElem hn
    rw [List.take_add_one, htag, Option.toList_some, unmatched, List.foldl_append]
    exact lists_step htag hopenings horphans

/-! ### One name at a time -/

/-- The opening and closing tags of a name. -/
def ofName (name : Text) (tags : List Tag) : List Tag :=
  tags.filter fun tag => tag.name = name ∧ tag.kind ≠ .selfClosing

/-- The tags of a name that have no counterpart. -/
def Unmatched.ofName (name : Text) (u : Unmatched) : Unmatched :=
  ⟨u.openings.filter (·.name = name), u.orphans.filter (·.name = name)⟩

/-- How many of some tags are of a kind. -/
def count (kind : TagKind) (tags : List Tag) : Nat := tags.countP (·.kind = kind)

/-- The opening and closing tags of a name are balanced when nowhere more of them have closed than
opened, and all that opened have closed in the end. -/
def IsBalanced (name : Text) (tags : List Tag) : Prop :=
  (∀ first, first <+: ofName name tags → count .closing first ≤ count .opening first) ∧
    count .closing (ofName name tags) = count .opening (ofName name tags)

theorem filter_without (name other : Text) (opened : List Tag) :
    (without name opened).filter (·.name = other) =
      if name = other then without name (opened.filter (·.name = other))
      else opened.filter (·.name = other) := by
  induction opened with
  | nil => simp [without, takeBack?]
  | cons tag opened ih =>
    rw [without_cons]
    by_cases hname : tag.name = name
    · obtain rfl := hname
      by_cases hother : tag.name = other <;> simp [hother, without_cons]
    · rw [if_neg hname, List.filter_cons, ih]
      by_cases hother : tag.name = other
      · have hne : name ≠ other := fun h => hname (hother.trans h.symm)
        simp [hother, hne]
      · by_cases hsame : name = other <;> simp [hother, hsame]

theorem takeBack?_filter_eq_none_iff {name : Text} {opened : List Tag} :
    takeBack? name (opened.filter (·.name = name)) = none ↔ takeBack? name opened = none := by
  rw [takeBack?_eq_none_iff, takeBack?_eq_none_iff]
  simp

/-- **One more tag** changes the tags of its own name, as if there were no others. -/
theorem ofName_step (name : Text) (u : Unmatched) (tag : Tag) :
    (step u tag).ofName name =
      if tag.name = name then step (u.ofName name) tag else u.ofName name := by
  by_cases hname : tag.name = name
  · obtain rfl := hname
    rw [if_pos rfl]
    have hopenings : ((step u tag).ofName tag.name).openings
        = (step (u.ofName tag.name) tag).openings := by
      rw [Unmatched.ofName, openings_step, openings_step]
      cases tag.kind with
      | opening => simp [Unmatched.ofName]
      | selfClosing => rfl
      | closing => exact (filter_without tag.name tag.name u.openings).trans (if_pos rfl)
    have horphans : ((step u tag).ofName tag.name).orphans
        = (step (u.ofName tag.name) tag).orphans := by
      rw [Unmatched.ofName, orphans_step, orphans_step, Unmatched.ofName]
      simp only [takeBack?_filter_eq_none_iff]
      split <;> simp
    exact congrArg₂ Unmatched.mk hopenings horphans
  · rw [if_neg hname]
    have hopenings : (step u tag).openings.filter (·.name = name)
        = u.openings.filter (·.name = name) := by
      rw [openings_step]
      cases tag.kind with
      | opening => simp [hname]
      | selfClosing => rfl
      | closing => exact (filter_without tag.name name u.openings).trans (if_neg hname)
    have horphans : (step u tag).orphans.filter (·.name = name)
        = u.orphans.filter (·.name = name) := by
      rw [orphans_step]
      split <;> simp [hname]
    exact congrArg₂ Unmatched.mk hopenings horphans

/-- **Names do not meddle with each other.** -/
theorem ofName_foldl_step (name : Text) (tags : List Tag) (u : Unmatched) :
    (tags.foldl step u).ofName name = (ofName name tags).foldl step (u.ofName name) := by
  induction tags generalizing u with
  | nil => rfl
  | cons tag tags ih =>
    rw [List.foldl_cons, ih, ofName_step, ofName, ofName, List.filter_cons]
    by_cases hname : tag.name = name
    · by_cases hkind : tag.kind = .selfClosing
      · simp [hname, hkind, step]
      · simp [hname, hkind]
    · simp [hname]

/-- What has found nothing to close stays so. -/
theorem orphans_foldl_ne_nil (tags : List Tag) {u : Unmatched} (h : u.orphans ≠ []) :
    (tags.foldl step u).orphans ≠ [] := by
  induction tags generalizing u with
  | nil => exact h
  | cons tag tags ih =>
    refine ih ?_
    rw [orphans_step]
    split
    · exact List.cons_ne_nil _ _
    · exact h

theorem count_cons (kind : TagKind) (tag : Tag) (tags : List Tag) :
    count kind (tag :: tags) = count kind tags + if tag.kind = kind then 1 else 0 := by
  rw [count, List.countP_cons, count]
  simp

theorem forall_first_cons_iff {p : List Tag → Prop} {tag : Tag} {tags : List Tag} :
    (∀ first, first <+: tag :: tags → p first) ↔
      p [] ∧ ∀ first, first <+: tags → p (tag :: first) := by
  constructor
  · exact fun h => ⟨h [] List.nil_prefix, fun first hfirst =>
      h (tag :: first) (List.cons_prefix_cons.mpr ⟨rfl, hfirst⟩)⟩
  · rintro ⟨hnil, hcons⟩ first hfirst
    rcases List.prefix_cons_iff.mp hfirst with rfl | ⟨rest, rfl, hrest⟩
    · exact hnil
    · exact hcons rest hrest

/-- **Tags of one name** are a matter of counting. -/
theorem foldl_step_of_name {name : Text} {tags : List Tag} (htags : ∀ t ∈ tags, t.name = name)
    {u : Unmatched} (hu : ∀ t ∈ u.openings, t.name = name) (horphans : u.orphans = []) :
    ((tags.foldl step u).orphans = [] ↔ ∀ first, first <+: tags →
      count .closing first ≤ u.openings.length + count .opening first) ∧
    ((tags.foldl step u).orphans = [] → (tags.foldl step u).openings.length + count .closing tags
      = u.openings.length + count .opening tags) := by
  induction tags generalizing u with
  | nil =>
    refine ⟨iff_of_true horphans fun first h => ?_, fun _ => rfl⟩
    obtain rfl := List.prefix_nil.mp h
    exact Nat.zero_le _
  | cons tag tags ih =>
    obtain ⟨htag, htags⟩ := List.forall_mem_cons.mp htags
    rw [List.foldl_cons, forall_first_cons_iff]
    simp only [count_cons]
    obtain ⟨opened, orphans⟩ := u
    obtain rfl : orphans = [] := horphans
    have hnil : count .closing [] ≤ opened.length + count .opening [] := Nat.zero_le _
    rw [and_iff_right hnil]
    cases hkind : tag.kind with
    | opening =>
      obtain ⟨hnone, hcount⟩ := ih htags (u := ⟨tag :: opened, []⟩)
        (List.forall_mem_cons.mpr ⟨htag, hu⟩) rfl
      rw [step, hkind]
      refine ⟨hnone.trans (forall₂_congr fun first _ => ?_), fun h => ?_⟩
      · simp only [List.length_cons, reduceCtorEq, if_true, if_false]
        omega
      · have hlength := hcount h
        simp only [List.length_cons, reduceCtorEq, if_true, if_false] at hlength ⊢
        omega
    | selfClosing =>
      obtain ⟨hnone, hcount⟩ := ih htags (u := ⟨opened, []⟩) hu rfl
      rw [step, hkind]
      exact ⟨by simpa using hnone, by simpa using hcount⟩
    | closing =>
      cases opened with
      | nil =>
        have horphan : (tags.foldl step (step ⟨[], []⟩ tag)).orphans ≠ [] :=
          orphans_foldl_ne_nil tags (by rw [step, hkind]; exact List.cons_ne_nil _ _)
        refine ⟨iff_of_false horphan fun h => ?_, fun h => absurd h horphan⟩
        exact absurd (h [] List.nil_prefix) (by simp [count])
      | cons t opened =>
        obtain ⟨hname, hopened⟩ := List.forall_mem_cons.mp hu
        obtain ⟨hnone, hcount⟩ := ih htags (u := ⟨opened, []⟩) hopened rfl
        have hstep : step ⟨t :: opened, []⟩ tag = ⟨opened, []⟩ := by
          rw [step, hkind]
          simp [takeBack?, hname, htag]
        rw [hstep]
        refine ⟨hnone.trans (forall₂_congr fun first _ => ?_), fun h => ?_⟩
        · simp only [List.length_cons, reduceCtorEq, if_true, if_false]
          omega
        · have hlength := hcount h
          simp only [List.length_cons, reduceCtorEq, if_true, if_false] at hlength ⊢
          omega

/-! ### Main results -/

theorem mismatch?_eq_none_iff_eq_nil :
    mismatch? tags = none ↔ (unmatched tags).orphans = [] ∧ (unmatched tags).openings = [] := by
  rw [mismatch?]
  cases hlast : (unmatched tags).orphans.getLast? with
  | some orphan =>
    refine iff_of_false (Option.some_ne_none _) fun h => ?_
    rw [h.1] at hlast
    cases hlast
  | none => simp [List.getLast?_eq_none_iff.mp hlast]

/-- The tags of a name all have counterparts when the name is balanced. -/
theorem isBalanced_iff (name : Text) (tags : List Tag) :
    IsBalanced name tags ↔ ((unmatched tags).ofName name).orphans = [] ∧
      ((unmatched tags).ofName name).openings = [] := by
  have hname : ∀ t ∈ ofName name tags, t.name = name := fun t ht =>
    (of_decide_eq_true (List.mem_filter.mp ht).2).1
  obtain ⟨hnone, hcount⟩ := foldl_step_of_name hname (u := ⟨[], []⟩) (List.forall_mem_nil _) rfl
  have hproject : (unmatched tags).ofName name = (ofName name tags).foldl step ⟨[], []⟩ :=
    ofName_foldl_step name tags ⟨[], []⟩
  rw [hproject, hnone, IsBalanced]
  simp only [List.length_nil, Nat.zero_add] at hcount hnone ⊢
  refine and_congr_right fun h => ?_
  have hcount := hcount (hnone.mpr h)
  rw [← List.length_eq_zero_iff]
  omega

/-- **There is no mismatch when every name is balanced,** and only then. -/
theorem mismatch?_eq_none_iff (tags : List Tag) :
    mismatch? tags = none ↔ ∀ name, IsBalanced name tags := by
  simp only [mismatch?_eq_none_iff_eq_nil, isBalanced_iff, Unmatched.ofName,
    List.filter_eq_nil_iff, forall_and]
  constructor
  · rintro ⟨horphans, hopenings⟩
    simp [horphans, hopenings]
  · rintro ⟨horphans, hopenings⟩
    refine ⟨List.eq_nil_iff_forall_not_mem.mpr fun tag htag => ?_,
      List.eq_nil_iff_forall_not_mem.mpr fun tag htag => ?_⟩
    · exact horphans tag.name tag htag (decide_eq_true rfl)
    · exact hopenings tag.name tag htag (decide_eq_true rfl)

mutual

/-- The tags of an element cancel each other. -/
theorem foldl_step_tags : ∀ (t : TagTree) (u : Unmatched), t.tags.foldl step u = u
  | .selfClosing name position attributes, u => rfl
  | .pair name position attributes content closing closingAttributes, u => by
    rw [TagTree.tags, List.foldl_cons, List.foldl_append, foldl_step_tagsOfAll content]
    simp [step, takeBack?]

theorem foldl_step_tagsOfAll : ∀ (ts : List TagTree) (u : Unmatched),
    (TagTree.tagsOfAll ts).foldl step u = u
  | [], u => rfl
  | t :: ts, u => by
    rw [TagTree.tagsOfAll, List.foldl_append, foldl_step_tags t, foldl_step_tagsOfAll ts]

end

/-- The tags of a document stand in reading order, so the first place has the first position. -/
theorem isFirst_of_le {document : Text} {p : Nat → Tag → Prop}
    (hp : ∀ i tag, p i tag → (Tag.ofText document)[i]? = some tag) {i : Nat} {tag : Tag}
    (htag : p i tag) (hfirst : ∀ k other, p k other → i ≤ k) : IsFirst p i tag := by
  refine ⟨htag, fun k other hother hne => ?_⟩
  have hik : i < k := Nat.lt_of_le_of_ne (hfirst k other hother) hne.symm
  obtain ⟨hi, rfl⟩ := List.getElem?_eq_some_iff.mp (hp i tag htag)
  obtain ⟨hk, rfl⟩ := List.getElem?_eq_some_iff.mp (hp k other hother)
  exact ⟨hik, List.pairwise_iff_getElem.mp (Tag.pairwise_ofText document) i k hi hk hik⟩

/-- The lists of the search after all tags: the opening tags that are never cancelled, and the
closing tags that find nothing to cancel. -/
theorem lists_unmatched_all (tags : List Tag) :
    Lists (IsUnclosed tags) (unmatched tags).openings ∧
      Lists (IsOrphan tags) (unmatched tags).orphans := by
  obtain ⟨hopenings, horphans⟩ := lists_unmatched tags (Nat.le_refl tags.length)
  rw [List.take_length] at hopenings horphans
  exact ⟨hopenings.congr fun i opening => isFree_length_iff.symm, horphans.congr fun j closing =>
    ⟨fun h => ⟨(List.getElem?_eq_some_iff.mp h.1).1, h⟩, fun h => h.2⟩⟩

/-- **Which tag is the mismatch.** There is none when the tags of every name are balanced, and only
then, so that well-nested tags have none. Else it is the first closing tag that finds no opening tag
to cancel, or when each finds one, the first opening tag that is never cancelled. -/
theorem mismatch_ofText (document : Text) :
    (mismatch? (Tag.ofText document) = none ↔ ∀ name, IsBalanced name (Tag.ofText document)) ∧
    (WellNested (Tag.ofText document) → mismatch? (Tag.ofText document) = none) ∧
    ((∃ j closing, IsOrphan (Tag.ofText document) j closing) →
      ∃ j closing, IsFirst (IsOrphan (Tag.ofText document)) j closing ∧
        mismatch? (Tag.ofText document) = some (.orphan closing.name, closing.position)) ∧
    ((∀ j closing, ¬ IsOrphan (Tag.ofText document) j closing) →
      (∃ i opening, IsUnclosed (Tag.ofText document) i opening) →
      ∃ i opening, IsFirst (IsUnclosed (Tag.ofText document)) i opening ∧
        mismatch? (Tag.ofText document) = some (.unclosed opening.name, opening.position)) := by
  obtain ⟨hopenings, horphans⟩ := lists_unmatched_all (Tag.ofText document)
  refine ⟨mismatch?_eq_none_iff _, ?_, ?_, ?_⟩
  · rintro ⟨forest, hforest⟩
    rw [mismatch?_eq_none_iff_eq_nil, hforest, unmatched, foldl_step_tagsOfAll]
    exact ⟨rfl, rfl⟩
  · rintro ⟨j, closing, h⟩
    rw [mismatch?]
    cases hlast : (unmatched (Tag.ofText document)).orphans.getLast? with
    | none =>
      exact absurd h (horphans.eq_nil_iff.mp (List.getLast?_eq_none_iff.mp hlast) j closing)
    | some orphan =>
      obtain ⟨k, hk, hfirst⟩ := horphans.exists_first hlast
      exact ⟨k, orphan, isFirst_of_le (fun _ _ h => h.1) hk hfirst, rfl⟩
  · rintro hnone ⟨i, opening, h⟩
    rw [mismatch?, horphans.eq_nil_iff.mpr hnone]
    cases hlast : (unmatched (Tag.ofText document)).openings.getLast? with
    | none =>
      exact absurd h (hopenings.eq_nil_iff.mp (List.getLast?_eq_none_iff.mp hlast) i opening)
    | some first =>
      obtain ⟨k, hk, hfirst⟩ := hopenings.exists_first hlast
      exact ⟨k, first, isFirst_of_le (fun _ _ h => h.1) hk hfirst, rfl⟩

/-- A closing tag without an opening tag goes before two opening tags that nothing closes. -/
theorem mismatch_ofText_orphan :
    ∃ j closing,
      IsFirst (IsOrphan (Tag.ofText (Text.ofString "<a>\n<b>\n</c>"))) j closing ∧
      closing.name = Text.ofString "c" ∧ closing.position = ⟨3, 1⟩ := by
  have htags : Tag.ofText (Text.ofString "<a>\n<b>\n</c>") =
      [⟨.opening, Text.ofString "a", ⟨1, 1⟩, []⟩, ⟨.opening, Text.ofString "b", ⟨2, 1⟩, []⟩,
        ⟨.closing, Text.ofString "c", ⟨3, 1⟩, []⟩] := by
    decide +kernel
  have hmismatch : mismatch? (Tag.ofText (Text.ofString "<a>\n<b>\n</c>"))
      = some (.orphan (Text.ofString "c"), ⟨3, 1⟩) := by
    decide +kernel
  have horphan : IsOrphan (Tag.ofText (Text.ofString "<a>\n<b>\n</c>")) 2
      ⟨.closing, Text.ofString "c", ⟨3, 1⟩, []⟩ := by
    rw [htags]
    refine ⟨rfl, rfl, ?_⟩
    rintro i ⟨closing, opening, hclosing, -, ⟨hi, hopening, -⟩, hname, -⟩
    obtain rfl := Option.some.inj hclosing
    match i, hi with
    | 0, _ =>
      obtain rfl := Option.some.inj hopening
      revert hname
      decide
    | 1, _ =>
      obtain rfl := Option.some.inj hopening
      revert hname
      decide
  obtain ⟨j, closing, hfirst, hfound⟩ := (mismatch_ofText _).2.2.1 ⟨2, _, horphan⟩
  obtain ⟨hname, hposition⟩ := Prod.mk.inj (Option.some.inj (hfound.symm.trans hmismatch))
  exact ⟨j, closing, hfirst, TagProblem.orphan.inj hname, hposition⟩

end Balance

end MarkupGrammar
