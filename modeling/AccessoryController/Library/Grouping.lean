import Mathlib.Data.List.Dedup
import Mathlib.Data.List.Perm.Basic
import Mathlib.Data.List.Sort

/-!
# Sorting and grouping by a key

A stable sort by a key, the sorted set of a list, and the grouping of a list into the classes of a
key in the order of their first members. When keys are distinct or the classes are sorted, the
result does not depend on the order of the list; the relation `PermUpTo` says what "up to the
order, and up to a relation on the members" means.

## Main definitions

* `Grouping.sortOn`, `Grouping.sortedSet`: the stable sort by a key, and the sorted set
* `Grouping.classes`: the classes of a key, in the order of their first members
* `Grouping.PermUpTo`: a permutation, up to a relation on the members

## Main results

* `Grouping.PermUpTo.sortOn`: lists with distinct keys are sorted into related lists
* `Grouping.items_sortOn_classes`: the classes, sorted by their key
-/

namespace Grouping

variable {T U V K L : Type*}

/-! ### Sorting -/

variable {l : List T} {key : T → K} {key' : U → K} {R : T → U → Prop}

section Sorting

variable [LinearOrder K]

/-- The stable sort by a key. -/
def sortOn (key : T → K) (l : List T) : List T := l.insertionSort fun a b => key a ≤ key b

theorem perm_sortOn (key : T → K) (l : List T) : (sortOn key l).Perm l :=
  List.perm_insertionSort _ l

@[simp] theorem mem_sortOn {x : T} : x ∈ sortOn key l ↔ x ∈ l :=
  (perm_sortOn key l).mem_iff

@[simp] theorem sortOn_nil (key : T → K) : sortOn key ([] : List T) = [] := rfl

theorem pairwise_sortOn (key : T → K) (l : List T) :
    (sortOn key l).Pairwise fun a b => key a ≤ key b := by
  have total : Std.Total fun a b : T => key a ≤ key b := ⟨fun a b => le_total (key a) (key b)⟩
  have transitive : IsTrans T fun a b => key a ≤ key b := ⟨fun _ _ _ => le_trans⟩
  exact List.pairwise_insertionSort _ l

theorem sortOn_eq_self (h : l.Pairwise fun a b => key a ≤ key b) : sortOn key l = l :=
  h.insertionSort_eq

/-- Distinct keys leave one sorted order. -/
theorem sortOn_eq_of_perm {l' : List T} (h : l.Perm l') (hnodup : (l.map key).Nodup) :
    sortOn key l = sortOn key l' := by
  refine List.Perm.eq_of_pairwise ?_ (pairwise_sortOn key l) (pairwise_sortOn key l')
    (((perm_sortOn key l).trans h).trans (perm_sortOn key l').symm)
  intro a b ha hb hab hba
  exact List.inj_on_of_nodup_map hnodup (mem_sortOn.mp ha) (h.mem_iff.mpr (mem_sortOn.mp hb))
    (le_antisymm hab hba)

theorem forall₂_orderedInsert (hkey : ∀ a b, R a b → key a = key' b) {a : T} {b : U} (hab : R a b)
    {l' : List U} (h : List.Forall₂ R l l') :
    List.Forall₂ R (l.orderedInsert (fun a b => key a ≤ key b) a)
      (l'.orderedInsert (fun a b => key' a ≤ key' b) b) := by
  induction h with
  | nil => exact .cons hab .nil
  | @cons c d l l' hcd htail ih =>
    rw [List.orderedInsert_cons, List.orderedInsert_cons, hkey _ _ hab, hkey _ _ hcd]
    split
    · exact .cons hab (.cons hcd htail)
    · exact .cons hcd ih

/-- Related lists are sorted into related lists, when related members have equal keys. -/
theorem forall₂_sortOn (hkey : ∀ a b, R a b → key a = key' b) {l' : List U}
    (h : List.Forall₂ R l l') : List.Forall₂ R (sortOn key l) (sortOn key' l') := by
  induction h with
  | nil => exact .nil
  | cons hab _ ih => exact forall₂_orderedInsert hkey hab ih

/-! ### Sorted sets -/

/-- The members of a list, sorted and without repetition. -/
def sortedSet (l : List K) : List K := l.dedup.insertionSort (· ≤ ·)

@[simp] theorem mem_sortedSet {l : List K} {x : K} : x ∈ sortedSet l ↔ x ∈ l := by
  rw [sortedSet, List.mem_insertionSort, List.mem_dedup]

theorem nodup_sortedSet (l : List K) : (sortedSet l).Nodup :=
  (List.perm_insertionSort _ _).nodup_iff.mpr l.nodup_dedup

theorem pairwise_sortedSet (l : List K) : (sortedSet l).Pairwise (· ≤ ·) :=
  List.pairwise_insertionSort _ _

/-- A sorted list without repetition is the sorted set of its members. -/
theorem eq_sortedSet {l l' : List K} (hsorted : l.Pairwise (· ≤ ·)) (hnodup : l.Nodup)
    (h : ∀ x, x ∈ l ↔ x ∈ l') : l = sortedSet l' := by
  refine List.Perm.eq_of_pairwise (fun _ _ _ _ => le_antisymm) hsorted (pairwise_sortedSet l') ?_
  refine (List.perm_ext_iff_of_nodup hnodup (nodup_sortedSet l')).mpr fun x => ?_
  rw [h, mem_sortedSet]

theorem sortedSet_congr {l l' : List K} (h : ∀ x, x ∈ l ↔ x ∈ l') : sortedSet l = sortedSet l' :=
  eq_sortedSet (pairwise_sortedSet l) (nodup_sortedSet l) fun x => by rw [mem_sortedSet, h]

end Sorting

/-! ### Related lists -/

section Related

variable {R : T → U → Prop} {l : List T} {l' : List U}

theorem forall₂_exists_right (h : List.Forall₂ R l l') {a : T} (ha : a ∈ l) : ∃ b ∈ l', R a b := by
  induction h with
  | nil => exact absurd ha List.not_mem_nil
  | @cons c d _ _ hcd _ ih =>
    rcases List.mem_cons.mp ha with rfl | ha
    · exact ⟨d, List.mem_cons_self, hcd⟩
    · obtain ⟨b, hb, hab⟩ := ih ha
      exact ⟨b, List.mem_cons_of_mem d hb, hab⟩

theorem forall₂_exists_left (h : List.Forall₂ R l l') {b : U} (hb : b ∈ l') : ∃ a ∈ l, R a b :=
  forall₂_exists_right h.flip hb

theorem forall₂_map_eq {f : T → V} {g : U → V} (hfg : ∀ a b, R a b → f a = g b)
    (h : List.Forall₂ R l l') : l.map f = l'.map g := by
  induction h with
  | nil => rfl
  | cons hab _ ih => rw [List.map_cons, List.map_cons, hfg _ _ hab, ih]

theorem forall₂_flatMap_eq {f : T → List V} {g : U → List V} (hfg : ∀ a b, R a b → f a = g b)
    (h : List.Forall₂ R l l') : l.flatMap f = l'.flatMap g := by
  rw [List.flatMap_def, List.flatMap_def, forall₂_map_eq hfg h]

theorem forall₂_filter {p : T → Bool} {q : U → Bool} (hpq : ∀ a b, R a b → p a = q b)
    (h : List.Forall₂ R l l') : List.Forall₂ R (l.filter p) (l'.filter q) := by
  induction h with
  | nil => exact .nil
  | @cons a b _ _ hab _ ih =>
    rw [List.filter_cons, List.filter_cons, hpq _ _ hab]
    split
    · exact .cons hab ih
    · exact ih

/-- A relation between the members of a list goes over to a related list. -/
theorem forall₂_pairwise {P : T → T → Prop} {Q : U → U → Prop}
    (hPQ : ∀ a b c d, R a c → R b d → P a b → Q c d) (h : List.Forall₂ R l l')
    (hl : l.Pairwise P) : l'.Pairwise Q := by
  induction h with
  | nil => exact .nil
  | @cons a c l l' hac htail ih =>
    obtain ⟨hfirst, hrest⟩ := List.pairwise_cons.mp hl
    refine .cons (fun d hd => ?_) (ih hrest)
    obtain ⟨b, hb, hbd⟩ := forall₂_exists_left htail hd
    exact hPQ a b c d hac hbd (hfirst b hb)

end Related

/-! ### Permutations up to a relation -/

/-- A permutation, up to a relation on the members. -/
def PermUpTo (R : T → U → Prop) : List T → List U → Prop :=
  Relation.Comp List.Perm (List.Forall₂ R)

namespace PermUpTo

variable {R : T → U → Prop} {l : List T} {l' : List U}

theorem of_forall₂ (h : List.Forall₂ R l l') : PermUpTo R l l' := ⟨l, .refl l, h⟩

theorem refl {R : T → T → Prop} (hR : ∀ x, R x x) (l : List T) : PermUpTo R l l :=
  of_forall₂ (List.forall₂_same.mpr fun x _ => hR x)

theorem symm {S : U → T → Prop} (hR : ∀ a b, R a b → S b a) (h : PermUpTo R l l') :
    PermUpTo S l' l := by
  obtain ⟨m, hperm, hm⟩ := h
  have hflip : List.Forall₂ S l' m := hm.flip.imp fun b a => hR a b
  have hcomp : Relation.Comp (List.Forall₂ S) List.Perm l' l := ⟨m, hflip, hperm.symm⟩
  rwa [List.forall₂_comp_perm_eq_perm_comp_forall₂] at hcomp

/-- Every member on the left has a related one on the right. -/
theorem exists_right (h : PermUpTo R l l') {a : T} (ha : a ∈ l) : ∃ b ∈ l', R a b :=
  let ⟨_, hperm, hm⟩ := h
  forall₂_exists_right hm (hperm.mem_iff.mp ha)

theorem map {W : Type*} {S : V → W → Prop} {f : T → V} {g : U → W}
    (hfg : ∀ a b, R a b → S (f a) (g b)) (h : PermUpTo R l l') :
    PermUpTo S (l.map f) (l'.map g) := by
  obtain ⟨m, hperm, hm⟩ := h
  refine ⟨m.map f, hperm.map f, ?_⟩
  rw [List.forall₂_map_left_iff, List.forall₂_map_right_iff]
  exact hm.imp hfg

theorem filter {p : T → Bool} {q : U → Bool} (hpq : ∀ a b, R a b → p a = q b)
    (h : PermUpTo R l l') : PermUpTo R (l.filter p) (l'.filter q) :=
  let ⟨m, hperm, hm⟩ := h
  ⟨m.filter p, hperm.filter p, forall₂_filter hpq hm⟩

theorem append {k : List T} {k' : List U} (h : PermUpTo R l l') (hk : PermUpTo R k k') :
    PermUpTo R (l ++ k) (l' ++ k') :=
  let ⟨m, hperm, hm⟩ := h
  let ⟨m', hperm', hm'⟩ := hk
  ⟨m ++ m', hperm.append hperm', List.rel_append hm hm'⟩

theorem flatMap {W : Type*} {S : V → W → Prop} {f : T → List V} {g : U → List W}
    (hfg : ∀ a b, R a b → PermUpTo S (f a) (g b)) (h : PermUpTo R l l') :
    PermUpTo S (l.flatMap f) (l'.flatMap g) := by
  obtain ⟨m, hperm, hm⟩ := h
  have hforall : PermUpTo S (m.flatMap f) (l'.flatMap g) := by
    clear hperm
    induction hm with
    | nil => exact of_forall₂ .nil
    | cons hab _ ih => exact (hfg _ _ hab).append ih
  obtain ⟨k, hk, hS⟩ := hforall
  exact ⟨k, (hperm.flatMap_right f).trans hk, hS⟩

/-- What related members have in common is permuted. -/
theorem map_perm {f : T → V} {g : U → V} (hfg : ∀ a b, R a b → f a = g b) (h : PermUpTo R l l') :
    (l.map f).Perm (l'.map g) := by
  obtain ⟨m, hperm, hm⟩ := h
  rw [← forall₂_map_eq hfg hm]
  exact hperm.map f

/-- Lists with distinct keys are sorted into related lists. -/
theorem sortOn [LinearOrder K] (hkey : ∀ a b, R a b → key a = key' b) (hnodup : (l.map key).Nodup)
    (h : PermUpTo R l l') : List.Forall₂ R (sortOn key l) (Grouping.sortOn key' l') := by
  obtain ⟨m, hperm, hm⟩ := h
  rw [sortOn_eq_of_perm hperm hnodup]
  exact forall₂_sortOn hkey hm

theorem sortedSet [LinearOrder K] (hkey : ∀ a b, R a b → key a = key' b) (h : PermUpTo R l l') :
    sortedSet (l.map key) = Grouping.sortedSet (l'.map key') := by
  refine sortedSet_congr fun x => ?_
  simp only [List.mem_map]
  constructor
  · rintro ⟨a, ha, rfl⟩
    obtain ⟨b, hb, hab⟩ := h.exists_right ha
    exact ⟨b, hb, (hkey _ _ hab).symm⟩
  · rintro ⟨b, hb, rfl⟩
    obtain ⟨a, ha, hab⟩ := (h.symm (S := fun b a => R a b) fun _ _ => id).exists_right hb
    exact ⟨a, ha, hkey _ _ hab⟩

/-- A list with at most one member has one order. -/
theorem forall₂_of_length_le_one (hl : l.length ≤ 1) (h : PermUpTo R l l') :
    List.Forall₂ R l l' := by
  obtain ⟨m, hperm, hm⟩ := h
  cases l with
  | nil =>
    rw [List.nil_perm.mp hperm] at hm
    exact hm
  | cons a l =>
    rw [List.length_cons] at hl
    rw [List.length_eq_zero_iff.mp (Nat.le_zero.mp (Nat.le_of_succ_le_succ hl))] at hperm ⊢
    rw [← List.singleton_perm.mp hperm] at hm
    exact hm

end PermUpTo

/-! ### Classes of a key -/

/-- A class: its first member and the later ones, in order. -/
structure Class (T : Type*) where
  first : T
  later : List T
  deriving DecidableEq

namespace Class

def items (c : Class T) : List T := c.first :: c.later

end Class

variable {c : Class T}

section Classes

variable [DecidableEq K] [DecidableEq L]

/-- Appends a member to the class of its key, or opens the class. -/
def insertClass (key : T → K) (x : T) : List (Class T) → List (Class T)
  | [] => [⟨x, []⟩]
  | c :: rest =>
    if key c.first = key x then ⟨c.first, c.later ++ [x]⟩ :: rest
    else c :: insertClass key x rest

/-- The classes of a key, in the order of their first members. -/
def classes (key : T → K) (l : List T) : List (Class T) :=
  l.foldl (fun opened x => insertClass key x opened) []

theorem insertClass_cons (key : T → K) (x : T) (c : Class T) (rest : List (Class T)) :
    insertClass key x (c :: rest) =
      if key c.first = key x then ⟨c.first, c.later ++ [x]⟩ :: rest
      else c :: insertClass key x rest := rfl

/-- An open class takes the members with its key, and the others go past it. -/
theorem foldl_insertClass (key : T → K) (c : Class T) (opened : List (Class T)) (l : List T) :
    l.foldl (fun opened x => insertClass key x opened) (c :: opened) =
      ⟨c.first, c.later ++ l.filter fun x => key x = key c.first⟩ ::
        (l.filter fun x => key x ≠ key c.first).foldl
          (fun opened x => insertClass key x opened) opened := by
  induction l generalizing c opened with
  | nil => simp
  | cons x l ih =>
    rw [List.foldl_cons, insertClass_cons]
    by_cases hx : key c.first = key x
    · rw [if_pos hx, ih]
      simp [hx.symm]
    · have hx' : key x ≠ key c.first := fun h => hx h.symm
      rw [if_neg hx, ih]
      simp [hx']

@[simp] theorem classes_nil (key : T → K) : classes key ([] : List T) = [] := rfl

theorem classes_cons (key : T → K) (x : T) (l : List T) :
    classes key (x :: l) =
      ⟨x, l.filter fun y => key y = key x⟩ :: classes key (l.filter fun y => key y ≠ key x) := by
  unfold classes
  rw [List.foldl_cons, insertClass, foldl_insertClass]
  simp

/-- The induction that the classes of a list follow. -/
theorem classes_induction (key : T → K) {P : List T → Prop} (nil : P [])
    (cons : ∀ x l, P (l.filter fun y => key y ≠ key x) → P (x :: l)) (l : List T) : P l := by
  induction hn : l.length using Nat.strong_induction_on generalizing l with
  | _ n ih =>
    cases l with
    | nil => exact nil
    | cons x l =>
      refine cons x l (ih _ ?_ _ rfl)
      rw [← hn, List.length_cons]
      exact Nat.lt_succ_of_le (List.length_filter_le _ l)

/-- A class holds every member with its key. -/
theorem items_of_mem_classes (hc : c ∈ classes key l) :
    c.items = l.filter fun y => key y = key c.first := by
  induction l using classes_induction key with
  | nil => exact absurd hc List.not_mem_nil
  | cons x l ih =>
    rw [classes_cons] at hc
    rcases List.mem_cons.mp hc with rfl | hc
    · simp [Class.items]
    · have hitems := ih hc
      have hfirst : c.first ∈ l.filter fun y => key y ≠ key x := by
        have : c.first ∈ c.items := List.mem_cons_self
        rw [hitems] at this
        exact List.mem_of_mem_filter this
      have hne : key c.first ≠ key x := by simpa using (List.mem_filter.mp hfirst).2
      rw [hitems, List.filter_cons, if_neg (by simpa using fun h => hne h.symm),
        List.filter_filter]
      refine List.filter_congr fun y _ => ?_
      by_cases hy : key y = key c.first <;> simp [hy, hne]

theorem exists_mem_classes (key : T → K) {x : T} (hx : x ∈ l) :
    ∃ c ∈ classes key l, x ∈ c.items := by
  induction l using classes_induction key with
  | nil => exact absurd hx List.not_mem_nil
  | cons y l ih =>
    rw [classes_cons]
    by_cases hkey : key x = key y
    · refine ⟨_, List.mem_cons_self, ?_⟩
      rcases List.mem_cons.mp hx with rfl | hx
      · exact List.mem_cons_self
      · exact List.mem_cons_of_mem _ (List.mem_filter.mpr ⟨hx, by simpa using hkey⟩)
    · have hl : x ∈ l := by
        rcases List.mem_cons.mp hx with rfl | hx
        · exact absurd rfl hkey
        · exact hx
      obtain ⟨c, hc, hxc⟩ := ih (List.mem_filter.mpr ⟨hl, by simpa using hkey⟩)
      exact ⟨c, List.mem_cons_of_mem _ hc, hxc⟩

theorem mem_of_mem_classes (hc : c ∈ classes key l) {x : T} (hx : x ∈ c.items) :
    x ∈ l ∧ key x = key c.first := by
  rw [items_of_mem_classes hc, List.mem_filter] at hx
  exact ⟨hx.1, by simpa using hx.2⟩

/-- Different classes have different keys. -/
theorem pairwise_classes (key : T → K) (l : List T) :
    (classes key l).Pairwise fun c d => key c.first ≠ key d.first := by
  induction l using classes_induction key with
  | nil => exact .nil
  | cons x l ih =>
    rw [classes_cons]
    refine .cons (fun d hd => ?_) ih
    have hfirst := (mem_of_mem_classes hd (List.mem_cons_self : d.first ∈ d.items)).1
    exact fun h => (by simpa using (List.mem_filter.mp hfirst).2 : key d.first ≠ key x) h.symm

/-- Members with different keys are classes of their own. -/
theorem classes_of_pairwise (h : l.Pairwise fun a b => key a ≠ key b) :
    classes key l = l.map fun x => ⟨x, []⟩ := by
  induction l with
  | nil => rfl
  | cons x l ih =>
    obtain ⟨hx, hl⟩ := List.pairwise_cons.mp h
    have hnone : (l.filter fun y => key y = key x) = [] :=
      List.filter_eq_nil_iff.mpr fun y hy => by simpa using (hx y hy).symm
    have hall : (l.filter fun y => key y ≠ key x) = l :=
      List.filter_eq_self.mpr fun y hy => by simpa using (hx y hy).symm
    rw [classes_cons, hnone, hall, ih hl, List.map_cons]

/-- Two keys that tell the same members apart have the same classes. -/
theorem classes_congr {key' : T → L} (h : ∀ x ∈ l, ∀ y ∈ l, key x = key y ↔ key' x = key' y) :
    classes key l = classes key' l := by
  induction l using classes_induction key with
  | nil => rfl
  | cons x l ih =>
    have hx : ∀ y ∈ l, (key y = key x ↔ key' y = key' x) := fun y hy =>
      h y (List.mem_cons_of_mem x hy) x List.mem_cons_self
    have hsame : (l.filter fun y => key y ≠ key x) = l.filter fun y => key' y ≠ key' x :=
      List.filter_congr fun y hy => by simp [hx y hy]
    have hclass : (l.filter fun y => key y = key x) = l.filter fun y => key' y = key' x :=
      List.filter_congr fun y hy => by simp [hx y hy]
    rw [classes_cons, classes_cons, ← hsame, hclass, ih]
    intro y hy z hz
    exact h y (List.mem_cons_of_mem x (List.mem_of_mem_filter hy)) z
      (List.mem_cons_of_mem x (List.mem_of_mem_filter hz))

/-- Related classes. -/
def Class.Related (R : T → U → Prop) (c : Class T) (d : Class U) : Prop :=
  R c.first d.first ∧ List.Forall₂ R c.later d.later

theorem Class.Related.items {d : Class U} (h : c.Related R d) :
    List.Forall₂ R c.items d.items := .cons h.1 h.2

theorem Class.related_of_items {d : Class U} (h : List.Forall₂ R c.items d.items) :
    c.Related R d := List.forall₂_cons.mp h

theorem Class.Related.symm {S : U → T → Prop} (hR : ∀ a b, R a b → S b a) {d : Class U}
    (h : c.Related R d) : d.Related S c :=
  ⟨hR _ _ h.1, h.2.flip.imp fun _ _ => hR _ _⟩

/-- Related lists have related classes, when related members have equal keys. -/
theorem forall₂_classes (hkey : ∀ a b, R a b → key a = key' b) {l' : List U}
    (h : List.Forall₂ R l l') :
    List.Forall₂ (Class.Related R) (classes key l) (classes key' l') := by
  induction l using classes_induction key generalizing l' with
  | nil =>
    rw [List.forall₂_nil_left_iff.mp h]
    exact .nil
  | cons x l ih =>
    obtain ⟨y, l'', hxy, htail, rfl⟩ := List.forall₂_cons_left_iff.mp h
    rw [classes_cons, classes_cons]
    refine .cons ⟨hxy, forall₂_filter (fun a b hab => ?_) htail⟩
      (ih (forall₂_filter (fun a b hab => ?_) htail))
    · rw [hkey a b hab, hkey x y hxy]
    · rw [hkey a b hab, hkey x y hxy]

end Classes

/-- **The classes, sorted by their key**, are the members of each key in the sorted set of keys. -/
theorem items_sortOn_classes [LinearOrder K] (key : T → K) (l : List T) :
    (sortOn (fun c => key c.first) (classes key l)).map Class.items =
      (sortedSet (l.map key)).map fun k => l.filter fun x => key x = k := by
  have hkeys : (sortOn (fun c => key c.first) (classes key l)).map (fun c => key c.first) =
      sortedSet (l.map key) := by
    refine eq_sortedSet ?_ ?_ fun k => ?_
    · exact List.pairwise_map.mpr (pairwise_sortOn _ _)
    · refine List.Nodup.perm ?_ ((perm_sortOn _ _).map _).symm
      exact List.pairwise_map.mpr (pairwise_classes key l)
    · simp only [List.mem_map, mem_sortOn]
      constructor
      · rintro ⟨c, hc, rfl⟩
        exact ⟨c.first, (mem_of_mem_classes hc List.mem_cons_self).1, rfl⟩
      · rintro ⟨x, hx, rfl⟩
        obtain ⟨c, hc, hxc⟩ := exists_mem_classes key hx
        exact ⟨c, hc, (mem_of_mem_classes hc hxc).2.symm⟩
  rw [← hkeys, List.map_map]
  refine List.map_congr_left fun c hc => ?_
  exact items_of_mem_classes (mem_sortOn.mp hc)

end Grouping
