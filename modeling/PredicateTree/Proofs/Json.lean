import PredicateTree.Json

/-!
# Proofs.Json

Trees of data as they can be stored, and as they are compared.

* `Json.inner`: the trees right below, each of which is less deep.
* `Json.stored`: what a text makes of a tree. There is no way to write a number that is not finite,
  and null is written for it.
* `Json.IsStored`: the tree is stored as it is. So it is exactly if it is no such number and all
  trees right below are stored as they are.
* `Json.agrees_trans`: two trees agree if both agree with a third between them.
-/

namespace PredicateTree

def Binary64.isFinite (x : Binary64) : Bool := !x.isNaN && !x.isInfinite

theorem Binary64.equals_trans {x y z : Binary64} (h : x.equals y = true) (h' : y.equals z = true) :
    x.equals z = true := by
  simp only [equals, compare?, beq_iff_eq, Option.ite_none_left_eq_some, Option.some.injEq,
    Bool.or_eq_true, not_or, Bool.not_eq_true, Std.LawfulEqCmp.compare_eq_iff_eq] at h h' ⊢
  obtain ⟨⟨hx, -⟩, hxy⟩ := h
  obtain ⟨⟨-, hz⟩, hyz⟩ := h'
  exact ⟨⟨hx, hz⟩, hxy.trans hyz⟩

namespace Json

def inner : Json → List Json
  | array js => js
  | object ms => ms.map Prod.snd
  | null | bool _ | unsigned _ | negative _ | float _ | string _ => []

theorem depth_le_depthItems {j : Json} {js : List Json} (h : j ∈ js) : j.depth ≤ depthItems js := by
  induction js with
  | nil => cases h
  | cons i js ih =>
    rw [depthItems]
    rcases List.mem_cons.1 h with rfl | h
    · exact Nat.le_max_left _ _
    · exact Nat.le_trans (ih h) (Nat.le_max_right _ _)

theorem depth_le_depthMembers {m : String × Json} {ms : List (String × Json)} (h : m ∈ ms) :
    m.2.depth ≤ depthMembers ms := by
  induction ms with
  | nil => cases h
  | cons m' ms ih =>
    rw [depthMembers]
    rcases List.mem_cons.1 h with rfl | h
    · exact Nat.le_max_left _ _
    · exact Nat.le_trans (ih h) (Nat.le_max_right _ _)

theorem depth_lt_of_mem_inner {i j : Json} (h : i ∈ j.inner) : i.depth < j.depth := by
  cases j with
  | array js => exact Nat.lt_succ_of_le (depth_le_depthItems h)
  | object ms =>
    obtain ⟨m, hm, rfl⟩ := List.mem_map.1 h
    exact Nat.lt_succ_of_le (depth_le_depthMembers hm)
  | _ => cases h

/-! ## What can be stored -/

mutual

def stored : Json → Json
  | float x => if x.isFinite then float x else null
  | array js => array (storedItems js)
  | object ms => object (storedMembers ms)
  | null => null
  | bool b => bool b
  | unsigned n => unsigned n
  | negative n => negative n
  | string s => string s

def storedItems : List Json → List Json
  | [] => []
  | j :: js => j.stored :: storedItems js

def storedMembers : List (String × Json) → List (String × Json)
  | [] => []
  | (k, j) :: ms => (k, j.stored) :: storedMembers ms

end

mutual

theorem stored_stored : ∀ j : Json, j.stored.stored = j.stored
  | float x => by cases h : x.isFinite <;> simp [stored, h]
  | array js => by rw [stored, stored, storedItems_storedItems js]
  | object ms => by rw [stored, stored, storedMembers_storedMembers ms]
  | null => rfl
  | bool _ => rfl
  | unsigned _ => rfl
  | negative _ => rfl
  | string _ => rfl

theorem storedItems_storedItems : ∀ js : List Json, storedItems (storedItems js) = storedItems js
  | [] => rfl
  | j :: js => by
    rw [storedItems, storedItems, stored_stored j, storedItems_storedItems js]

theorem storedMembers_storedMembers : ∀ ms : List (String × Json),
    storedMembers (storedMembers ms) = storedMembers ms
  | [] => rfl
  | (k, j) :: ms => by
    rw [storedMembers, storedMembers, stored_stored j, storedMembers_storedMembers ms]

end

/-- The tree can be written as it is. -/
def IsStored (j : Json) : Prop := j.stored = j

theorem storedItems_eq_self_iff {js : List Json} : storedItems js = js ↔ ∀ j ∈ js, j.IsStored := by
  induction js with
  | nil => simp [storedItems]
  | cons j js ih => simp [storedItems, IsStored, ih]

theorem storedMembers_eq_self_iff {ms : List (String × Json)} :
    storedMembers ms = ms ↔ ∀ m ∈ ms, m.2.IsStored := by
  induction ms with
  | nil => simp [storedMembers]
  | cons m ms ih =>
    obtain ⟨k, j⟩ := m
    simp [storedMembers, IsStored, ih]

theorem isStored_float_iff {x : Binary64} : (float x).IsStored ↔ x.isFinite = true := by
  unfold IsStored stored
  split
  · simp_all
  · simp_all

theorem isStored_array_iff {js : List Json} : (array js).IsStored ↔ ∀ j ∈ js, j.IsStored := by
  rw [← storedItems_eq_self_iff, IsStored, stored, array.injEq]

theorem isStored_object_iff {ms : List (String × Json)} :
    (object ms).IsStored ↔ ∀ m ∈ ms, m.2.IsStored := by
  rw [← storedMembers_eq_self_iff, IsStored, stored, object.injEq]

theorem IsStored.inner {i j : Json} (h : j.IsStored) (hi : i ∈ j.inner) : i.IsStored := by
  cases j with
  | array js => exact isStored_array_iff.1 h i hi
  | object ms =>
    obtain ⟨m, hm, rfl⟩ := List.mem_map.1 hi
    exact isStored_object_iff.1 h m hm
  | _ => cases hi

/-! ## Agreement -/

mutual

theorem agrees_trans : ∀ {i j k : Json}, i.agrees j = true → j.agrees k = true → i.agrees k = true
  | null, null, _, _, h' => h'
  | bool _, bool _, bool _, h, h' | unsigned _, unsigned _, unsigned _, h, h'
  | negative _, negative _, negative _, h, h' | string _, string _, string _, h, h' => by
    simp only [agrees, beq_iff_eq] at h h' ⊢
    exact h.trans h'
  | float _, float _, float _, h, h' => Binary64.equals_trans h h'
  | array _, array _, array _, h, h' => agreesItems_trans h h'
  | object _, object _, object _, h, h' => agreesMembers_trans h h'

theorem agreesItems_trans : ∀ {is js ks : List Json}, agreesItems is js = true →
    agreesItems js ks = true → agreesItems is ks = true
  | [], [], _, _, h' => h'
  | i :: is, j :: js, k :: ks, h, h' => by
    rw [agreesItems, Bool.and_eq_true] at h h' ⊢
    exact ⟨agrees_trans h.1 h'.1, agreesItems_trans h.2 h'.2⟩

theorem agreesMembers_trans : ∀ {is js ks : List (String × Json)}, agreesMembers is js = true →
    agreesMembers js ks = true → agreesMembers is ks = true
  | [], [], _, _, h' => h'
  | (a, i) :: is, (b, j) :: js, (c, k) :: ks, h, h' => by
    simp only [agreesMembers, Bool.and_eq_true, beq_iff_eq] at h h' ⊢
    exact ⟨⟨h.1.1.trans h'.1.1, agrees_trans h.1.2 h'.1.2⟩, agreesMembers_trans h.2 h'.2⟩

end

end Json

end PredicateTree
