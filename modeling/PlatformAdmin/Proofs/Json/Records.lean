import Mathlib.Data.List.Forall2
import Mathlib.Data.List.Perm.Basic
import Mathlib.Tactic.SplitIfs
import PlatformAdmin.Json.Record

/-!
# Members of an object

An object is a record with certain members if these are among its members, in any order, and the
others have keys that the record does not know: `IsRecord`.  The reader of records then finds the
known members only: `record?_of_isRecord`.
-/

set_option autoImplicit false

namespace PlatformAdmin.Json

variable {keys : List String} {key : String} {known ms : List (String × Json)}
  {members members' : List (Option String × Json)} {v : Json}

/-- An object with these members of a record, among members with keys that are none of its own. -/
def IsRecord (keys : List String) (known : List (String × Json)) (v : Json) : Prop :=
  ∃ members unknown, v = .ofMembers members ∧ members.Perm (known ++ unknown) ∧
    ∀ m ∈ unknown, m.1 ∉ keys

/-! ## Order and unknown members do not matter -/

/-- The order of the members is the same to a field. -/
theorem field?_perm (h : members.Perm members') (key : String) :
    field? members key = field? members' key := by
  have hvalues : (valuesOf members key).Perm (valuesOf members' key) := h.filterMap _
  unfold field?
  match hlist : valuesOf members key with
  | [] =>
    rw [hlist] at hvalues
    rw [hvalues.nil_eq]
  | [v] =>
    rw [hlist] at hvalues
    rw [List.perm_singleton.mp hvalues.symm]
  | v :: v' :: vs =>
    rw [hlist] at hvalues
    match valuesOf members' key, hvalues.length_eq with
    | _ :: _ :: _, _ => rfl

/-- Members with other keys are the same to a field. -/
theorem field?_append_unknown {unknown : List (Option String × Json)}
    (h : ∀ m ∈ unknown, m.1 ≠ some key) : field? (members ++ unknown) key = field? members key := by
  have hnone : valuesOf unknown key = [] :=
    List.filterMap_eq_nil_iff.mpr fun m hm => if_neg (h m hm)
  have hvalues : valuesOf (members ++ unknown) key = valuesOf members key := by
    rw [valuesOf, List.filterMap_append]
    exact (congrArg _ hnone).trans (List.append_nil _)
  rw [field?, field?, hvalues]

/-- A record of an object is the list of its fields. -/
theorem record?_ofMembers (ms : List (String × Json)) :
    (ofMembers ms).record? keys = keys.mapM (field? (ms.map fun m => (some m.1, m.2))) := by
  rw [ofMembers, record?, if_pos]
  rw [List.all_eq_true]
  intro m hm
  obtain ⟨m, -, rfl⟩ := List.mem_map.mp hm
  rfl

/-- Functions that agree on the items of a list agree on the whole list. -/
theorem mapM_congr {α β : Type} {f g : α → Option β} {xs : List α} (h : ∀ x ∈ xs, f x = g x) :
    xs.mapM f = xs.mapM g := by
  induction xs with
  | nil => rfl
  | cons x xs ih =>
    obtain ⟨hx, hxs⟩ := List.forall_mem_cons.mp h
    rw [List.mapM_cons, List.mapM_cons, hx, ih hxs]

/-- Of a record only the known members are read, in whatever order they stand. -/
theorem record?_of_isRecord (h : v.IsRecord keys known) :
    v.record? keys = (ofMembers known).record? keys := by
  obtain ⟨members, unknown, rfl, hperm, hunknown⟩ := h
  rw [record?_ofMembers, record?_ofMembers]
  refine mapM_congr fun key hkey => ?_
  rw [field?_perm (hperm.map _), List.map_append]
  refine field?_append_unknown fun m hm => ?_
  obtain ⟨m', hm', rfl⟩ := List.mem_map.mp hm
  intro hsame
  obtain rfl := Option.some.inj hsame
  exact hunknown m' hm' hkey

/-! ## A record of one member -/

/-- Members whose keys are all readable are those of an object with such keys. -/
theorem exists_ofMembers (h : members.all (·.1.isSome) = true) :
    ∃ ms : List (String × Json), members = ms.map fun m => (some m.1, m.2) := by
  induction members with
  | nil => exact ⟨[], rfl⟩
  | cons m members ih =>
    rw [List.all_cons, Bool.and_eq_true] at h
    obtain ⟨key, hkey⟩ := Option.isSome_iff_exists.mp h.1
    obtain ⟨ms, rfl⟩ := ih h.2
    exact ⟨(key, m.2) :: ms, by rw [List.map_cons, ← hkey]⟩

/-- The values of a key, member by member. -/
theorem valuesOf_cons (m : Option String × Json) :
    valuesOf (m :: members) key =
      if m.1 = some key then m.2 :: valuesOf members key else valuesOf members key := by
  rw [valuesOf, List.filterMap_cons]
  split_ifs with hkey <;> rfl

/-- The members with a key are its values, each with that key. -/
theorem filter_eq_valuesOf (ms : List (String × Json)) (key : String) :
    (ms.filter fun m => m.1 == key) =
      (valuesOf (ms.map fun m => (some m.1, m.2)) key).map (Prod.mk key) := by
  induction ms with
  | nil => rfl
  | cons m ms ih =>
    rw [List.filter_cons, ih, List.map_cons, valuesOf_cons]
    by_cases hkey : m.1 = key
    · subst hkey
      simp
    · simp [hkey]

/-- A field that is read is the only value of its key, or there is none. -/
theorem valuesOf_eq_of_field? {field : Option Json} (h : field? members key = some field) :
    valuesOf members key = field.toList := by
  unfold field? at h
  split at h
  · rename_i hvalues
    obtain rfl := Option.some.inj h
    exact hvalues
  · rename_i v hvalues
    obtain rfl := Option.some.inj h
    exact hvalues
  · cases h

/-- What is read as a record of one member is one, or the row of its fields. -/
theorem isRecord_of_record? {field : Option Json} (h : v.record? [key] = some [field]) :
    v.IsRecord [key] (field.toList.map (Prod.mk key)) ∨ v = .array field.toList := by
  cases v with
  | object members =>
    rw [record?] at h
    split_ifs at h with hall
    obtain ⟨ms, rfl⟩ := exists_ofMembers hall
    have hfield : field? (ms.map fun m => (some m.1, m.2)) key = some field := by
      rw [List.mapM_cons] at h
      obtain ⟨field', hfield, h⟩ := Option.bind_eq_some_iff.mp h
      obtain ⟨rfl, -⟩ := List.cons.inj (Option.some.inj h)
      exact hfield
    refine .inl ⟨ms, ms.filter fun m => !(m.1 == key), rfl, ?_, fun m hm => ?_⟩
    · rw [← valuesOf_eq_of_field? hfield, ← filter_eq_valuesOf]
      exact (List.filter_append_perm _ ms).symm
    · have hother := List.of_mem_filter hm
      simpa using hother
  | array items =>
    rw [record?] at h
    split_ifs at h with hlength
    right
    match items, hlength with
    | [], _ =>
      obtain ⟨rfl, -⟩ := List.cons.inj (Option.some.inj h)
      rfl
    | [item], _ =>
      obtain ⟨rfl, -⟩ := List.cons.inj (Option.some.inj h)
      rfl
  | _ => cases h

/-! ## Lists -/

/-- A list is mapped just if each of its items is. -/
theorem mapM_eq_some_iff {α β : Type} {f : α → Option β} {xs : List α} {ys : List β} :
    xs.mapM f = some ys ↔ List.Forall₂ (fun x y => f x = some y) xs ys := by
  induction xs generalizing ys with
  | nil =>
    rw [List.mapM_nil, List.forall₂_nil_left_iff]
    exact ⟨fun h => (Option.some.inj h).symm, fun h => congrArg some h.symm⟩
  | cons x xs ih =>
    rw [List.mapM_cons, List.forall₂_cons_left_iff]
    constructor
    · intro h
      obtain ⟨y, hy, h⟩ := Option.bind_eq_some_iff.mp h
      obtain ⟨ys', hys, h⟩ := Option.bind_eq_some_iff.mp h
      exact ⟨y, ys', hy, ih.mp hys, (Option.some.inj h).symm⟩
    · rintro ⟨y, ys', hy, hys, rfl⟩
      rw [hy, ih.mpr hys]
      rfl

/-- A list is read as a whole: one item that cannot be read loses all. -/
theorem mapM_eq_none_of_mem {α β : Type} {f : α → Option β} {xs : List α} {x : α} (h : x ∈ xs)
    (hx : f x = none) : xs.mapM f = none := by
  induction h with
  | head xs =>
    rw [List.mapM_cons, hx]
    rfl
  | @tail y xs _ ih =>
    rw [List.mapM_cons, ih]
    cases f y <;> rfl

end PlatformAdmin.Json
