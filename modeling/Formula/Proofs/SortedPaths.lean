import Formula.Command.Path
import Mathlib.Data.List.Destutter

/-!
# Paths in order

Comparing paths by their components is a total preorder, in which paths are
equal when their components are.  Inserting keeps a list of paths strictly
increasing, so that sorting gives one.  It has the first path of each spelling,
and is what a stable sort gives when neighbours that are equal are dropped.
-/

namespace Formula

instance : Std.TransCmp Component.compare :=
  inferInstanceAs (Std.TransCmp (compareLex
    (compareOn fun component : Component => component.key.1)
    (compareOn fun component : Component => component.key.2)))

theorem compareComponents_eq_compareLex (left right : List Component) :
    compareComponents left right =
      List.compareLex Component.compare left right := by
  induction left generalizing right with
  | nil => cases right <;> rfl
  | cons first left induction =>
      cases right with
      | nil => rfl
      | cons second right =>
          rw [compareComponents, List.compareLex_cons_cons, induction]

instance : Std.TransCmp comparePaths where
  eq_swap := by
    intro left right
    simp only [comparePaths, compareComponents_eq_compareLex]
    exact Std.OrientedCmp.eq_swap
  isLE_trans := by
    intro first second third lower upper
    simp only [comparePaths, compareComponents_eq_compareLex] at lower upper ⊢
    exact Std.TransCmp.isLE_trans lower upper

/-- Every path comes before all later ones, so that no two are equal by
components. -/
def Increasing (paths : List String) : Prop :=
  paths.Pairwise fun earlier later => comparePaths earlier later = .lt

theorem mem_insertPath {path other : String} {paths : List String}
    (member : other ∈ insertPath path paths) :
    other = path ∨ other ∈ paths := by
  induction paths with
  | nil => exact .inl (List.mem_singleton.mp member)
  | cons first rest induction =>
      unfold insertPath at member
      cases order : comparePaths path first with
      | lt =>
          rw [order] at member
          exact List.mem_cons.mp member
      | eq =>
          rw [order] at member
          rcases List.mem_cons.mp member with same | later
          · exact .inl same
          · exact .inr (List.mem_cons_of_mem _ later)
      | gt =>
          rw [order] at member
          rcases List.mem_cons.mp member with same | later
          · exact .inr (List.mem_cons.mpr (.inl same))
          · rcases induction later with same | inside
            · exact .inl same
            · exact .inr (List.mem_cons_of_mem _ inside)

theorem Increasing.insertPath {paths : List String}
    (increasing : Increasing paths)
    (path : String) : Increasing (insertPath path paths) := by
  induction paths with
  | nil => exact List.pairwise_singleton _ _
  | cons first rest induction =>
      obtain ⟨firstBefore, restIncreasing⟩ := List.pairwise_cons.mp increasing
      unfold Formula.insertPath
      cases order : comparePaths path first with
      | lt =>
          apply List.pairwise_cons.mpr
          refine ⟨?_, increasing⟩
          intro later member
          rcases List.mem_cons.mp member with rfl | inside
          · exact order
          · exact Std.TransCmp.lt_trans order (firstBefore later inside)
      | eq =>
          apply List.pairwise_cons.mpr
          refine ⟨?_, restIncreasing⟩
          intro later member
          exact Std.TransCmp.lt_of_eq_of_lt order (firstBefore later member)
      | gt =>
          apply List.pairwise_cons.mpr
          refine ⟨?_, induction restIncreasing⟩
          intro later member
          rcases mem_insertPath member with rfl | inside
          · exact Std.OrientedCmp.gt_iff_lt.mp order
          · exact firstBefore later inside

theorem increasing_sortPaths (paths : List String) :
    Increasing (sortPaths paths) := by
  induction paths with
  | nil => exact List.Pairwise.nil
  | cons path paths induction => exact induction.insertPath path

/-! ## Which paths stay -/

instance : Std.LawfulEqCmp Component.compare where
  eq_of_compare := by
    intro left right same
    obtain ⟨form, text⟩ := Ordering.then_eq_eq.mp same
    have sameForm := Std.LawfulEqCmp.compare_eq_iff_eq.mp form
    have sameText := Std.LawfulEqCmp.compare_eq_iff_eq.mp text
    cases left <;> cases right <;> simp_all [Component.key]
  compare_self := Std.ReflCmp.compare_self

theorem comparePaths_eq_iff {path other : String} :
    comparePaths path other = .eq ↔ components path = components other := by
  rw [comparePaths, compareComponents_eq_compareLex]
  exact Std.LawfulEqCmp.compare_eq_iff_eq

theorem components_ne_of_lt {path other : String}
    (before : comparePaths path other = .lt) :
    components path ≠ components other := by
  intro same
  cases before.symm.trans (comparePaths_eq_iff.mpr same)

theorem mem_insertPath_iff {path other : String} {paths : List String}
    (increasing : Increasing paths) :
    other ∈ insertPath path paths ↔
      other = path ∨ other ∈ paths ∧ components other ≠ components path := by
  induction paths with
  | nil => simp [insertPath]
  | cons first rest induction =>
      obtain ⟨firstBefore, restIncreasing⟩ := List.pairwise_cons.mp increasing
      unfold insertPath
      cases order : comparePaths path first with
      | lt =>
          have different : ∀ later ∈ first :: rest,
              components later ≠ components path := by
            intro later member
            rcases List.mem_cons.mp member with rfl | inside
            · exact (components_ne_of_lt order).symm
            · have before :=
                Std.TransCmp.lt_trans order (firstBefore later inside)
              exact (components_ne_of_lt before).symm
          rw [List.mem_cons]
          exact or_congr_right
            ⟨fun member => ⟨member, different other member⟩, And.left⟩
      | eq =>
          have same := comparePaths_eq_iff.mp order
          have different :
              ∀ later ∈ rest, components later ≠ components path := by
            intro later inside
            rw [same]
            exact (components_ne_of_lt (firstBefore later inside)).symm
          rw [List.mem_cons, List.mem_cons]
          apply or_congr_right
          constructor
          · exact fun inside => ⟨.inr inside, different other inside⟩
          · rintro ⟨rfl | inside, differs⟩
            · exact absurd same.symm differs
            · exact inside
      | gt =>
          have different :=
            components_ne_of_lt (Std.OrientedCmp.gt_iff_lt.mp order)
          have first_iff : other = first ↔
              other = first ∧ components other ≠ components path :=
            ⟨fun same => ⟨same, same ▸ different⟩, And.left⟩
          rw [List.mem_cons, List.mem_cons, induction restIncreasing,
            or_and_right, ← first_iff, or_left_comm]

/-- Of the paths that are equal by components the first one stays. -/
theorem mem_sortPaths_iff {paths : List String} {path : String} :
    path ∈ sortPaths paths ↔
      paths.find? (components · = components path) = some path := by
  induction paths with
  | nil => simp [sortPaths]
  | cons first rest induction =>
      rw [sortPaths, List.foldr_cons, ← sortPaths,
        mem_insertPath_iff (increasing_sortPaths rest), induction]
      by_cases same : components first = components path
      · rw [List.find?_cons_of_pos (by simpa using same), Option.some_inj]
        constructor
        · rintro (rfl | ⟨-, differs⟩)
          · rfl
          · exact absurd same.symm differs
        · exact fun found => .inl found.symm
      · rw [List.find?_cons_of_neg (by simpa using same)]
        constructor
        · rintro (rfl | ⟨found, -⟩)
          · exact absurd rfl same
          · exact found
        · exact fun found => .inr ⟨found, Ne.symm same⟩

/-- Sorting loses no path up to components. -/
theorem mem_map_components_sortPaths {paths : List String}
    {parts : List Component} :
    parts ∈ (sortPaths paths).map components ↔
      parts ∈ paths.map components := by
  rw [List.mem_map, List.mem_map]
  constructor
  · rintro ⟨path, member, rfl⟩
    exact ⟨path, List.mem_of_find?_eq_some (mem_sortPaths_iff.mp member), rfl⟩
  · rintro ⟨path, member, rfl⟩
    obtain ⟨first, found⟩ : ∃ first,
        paths.find? (components · = components path) = some first := by
      apply Option.isSome_iff_exists.mp
      exact List.find?_isSome.mpr ⟨path, member, by simp⟩
    have same : components first = components path := by
      simpa using List.find?_some found
    refine ⟨first, mem_sortPaths_iff.mpr ?_, same⟩
    rw [same]
    exact found

instance : Std.TransCmp compareComponents := by
  rw [funext₂ compareComponents_eq_compareLex]
  infer_instance

/-- Strictly increasing lists are determined by what is in them. -/
theorem eq_of_increasing {α : Type} {compare : α → α → Ordering}
    [Std.TransCmp compare] {left right : List α}
    (increasing : left.Pairwise (compare · · = .lt))
    (otherIncreasing : right.Pairwise (compare · · = .lt))
    (same : ∀ item, item ∈ left ↔ item ∈ right) : left = right := by
  have nodup : ∀ {items : List α}, items.Pairwise (compare · · = .lt) →
      items.Nodup := by
    intro items ordered
    refine ordered.imp ?_
    rintro item _ before rfl
    cases before.symm.trans Std.ReflCmp.compare_self
  have permuted := (List.perm_ext_iff_of_nodup (nodup increasing)
    (nodup otherIncreasing)).mpr same
  refine permuted.eq_of_pairwise ?_ increasing otherIncreasing
  intro item other _ _ before after
  cases before.symm.trans (Std.OrientedCmp.gt_of_lt after)

theorem Increasing.map_components {paths : List String}
    (increasing : Increasing paths) :
    (paths.map components).Pairwise (compareComponents · · = .lt) :=
  List.pairwise_map.mpr increasing

/-! ## A stable sort and its repetitions -/

/-- The path comes before the other one, or is equal to it. -/
def inOrder (path other : String) : Bool := (comparePaths path other).isLE

def sortStably (paths : List String) : List String := paths.mergeSort inOrder

/-- Drops every path that equals the one that stays before it. -/
def dropRepeated (paths : List String) : List String :=
  paths.destutter fun path other => components path ≠ components other

theorem inOrder_trans (first second third : String)
    (lower : inOrder first second = true)
    (upper : inOrder second third = true) :
    inOrder first third = true :=
  Std.TransCmp.isLE_trans lower upper

theorem inOrder_total (path other : String) :
    (inOrder path other || inOrder other path) = true := by
  have swapped : comparePaths other path = (comparePaths path other).swap :=
    Std.OrientedCmp.eq_swap
  rw [inOrder, inOrder, swapped]
  cases comparePaths path other <;> rfl

theorem inOrder_of_same {path other : String}
    (same : components path = components other) :
    inOrder path other = true := by
  rw [inOrder, comparePaths_eq_iff.mpr same]
  rfl

/-- The paths that are equal to one keep their order. -/
theorem filter_sortStably (paths : List String) (parts : List Component) :
    (sortStably paths).filter (components · = parts) =
      paths.filter (components · = parts) := by
  have equal : (paths.filter (components · = parts)).Pairwise fun path other =>
      inOrder path other = true := by
    apply List.pairwise_of_forall_mem_list
    intro path member other otherMember
    apply inOrder_of_same
    simp_all [List.mem_filter]
  have kept :
      (paths.filter (components · = parts)).Sublist (sortStably paths) :=
    List.sublist_mergeSort inOrder_trans inOrder_total equal List.filter_sublist
  have inside := kept.filter (components · = parts)
  simp only [List.filter_filter, Bool.and_self] at inside
  refine (inside.eq_of_length ?_).symm
  exact ((List.mergeSort_perm paths inOrder).filter _).length_eq.symm

theorem find?_sortStably (paths : List String) (parts : List Component) :
    (sortStably paths).find? (components · = parts) =
      paths.find? (components · = parts) := by
  rw [← List.head?_filter, filter_sortStably, List.head?_filter]

theorem sortPaths_sortStably (paths : List String) :
    sortPaths (sortStably paths) = sortPaths paths := by
  apply eq_of_increasing (increasing_sortPaths _) (increasing_sortPaths _)
  intro path
  rw [mem_sortPaths_iff, mem_sortPaths_iff, find?_sortStably]

theorem dropRepeated_cons_same {path other : String}
    (same : components other = components path) (rest : List String) :
    dropRepeated (path :: other :: rest) = dropRepeated (path :: rest) := by
  simp [dropRepeated, List.destutter_cons', same]

theorem dropRepeated_cons_other {path other : String}
    (differs : components path ≠ components other) (rest : List String) :
    dropRepeated (path :: other :: rest) =
      path :: dropRepeated (other :: rest) := by
  simp [dropRepeated, List.destutter_cons', differs]

/-- What stays behind a path depends on its components only. -/
theorem exists_dropRepeated_cons (parts : List Component) (rest : List String) :
    ∃ stays, ∀ path, components path = parts →
      dropRepeated (path :: rest) = path :: stays := by
  induction rest with
  | nil => exact ⟨[], fun path _ => rfl⟩
  | cons other rest induction =>
      by_cases same : components other = parts
      · obtain ⟨stays, rest_eq⟩ := induction
        refine ⟨stays, ?_⟩
        rintro path rfl
        rw [dropRepeated_cons_same same, rest_eq path rfl]
      · refine ⟨dropRepeated (other :: rest), ?_⟩
        rintro path rfl
        exact dropRepeated_cons_other (Ne.symm same) rest

/-- Once paths are in order, those that are equal stand side by side. -/
theorem sortPaths_eq_dropRepeated {paths : List String}
    (ordered : paths.Pairwise fun path other => inOrder path other = true) :
    sortPaths paths = dropRepeated paths := by
  induction paths with
  | nil => rfl
  | cons path rest induction =>
      obtain ⟨pathBefore, restOrdered⟩ := List.pairwise_cons.mp ordered
      rw [sortPaths, List.foldr_cons, ← sortPaths, induction restOrdered]
      cases rest with
      | nil => rfl
      | cons other rest =>
          have before := pathBefore other List.mem_cons_self
          obtain ⟨stays, rest_eq⟩ :=
            exists_dropRepeated_cons (components other) rest
          rw [rest_eq other rfl, insertPath]
          cases order : comparePaths path other with
          | lt =>
              rw [dropRepeated_cons_other (components_ne_of_lt order),
                rest_eq other rfl]
          | eq =>
              have same := comparePaths_eq_iff.mp order
              rw [dropRepeated_cons_same same.symm, rest_eq path same]
          | gt => simp [inOrder, order] at before

theorem sortPaths_eq_dropRepeated_sortStably (paths : List String) :
    sortPaths paths = dropRepeated (sortStably paths) := by
  rw [← sortPaths_sortStably]
  exact sortPaths_eq_dropRepeated
    (List.pairwise_mergeSort inOrder_trans inOrder_total paths)

end Formula
