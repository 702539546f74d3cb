/-!
# Table

Entries under names, kept in the order of the names. A name has at most one entry, and the latest
one stays.
-/

namespace PredicateTree

abbrev Table (α : Type) := List (String × α)

namespace Table

variable {α : Type}

def get? (t : Table α) (name : String) : Option α := List.lookup name t

def contains (t : Table α) (name : String) : Bool := (t.get? name).isSome

def put (name : String) (a : α) : Table α → Table α
  | [] => [(name, a)]
  | (k, b) :: t =>
    if name < k then (name, a) :: (k, b) :: t
    else if name = k then (name, a) :: t
    else (k, b) :: put name a t

/-- The entries put one after the other into an empty table. -/
def ofList (entries : List (String × α)) : Table α :=
  entries.foldl (fun t e => t.put e.1 e.2) []

def names (t : Table α) : List String := t.map Prod.fst

@[simp] theorem get?_put_self (t : Table α) (name : String) (a : α) :
    (t.put name a).get? name = some a := by
  induction t with
  | nil => simp [put, get?]
  | cons e t ih =>
    obtain ⟨k, b⟩ := e
    simp only [put]
    split
    · simp [get?]
    · split
      · simp [get?]
      · rename_i h
        have : (name == k) = false := by simpa using h
        simpa [get?, List.lookup_cons, this] using ih

theorem get?_put_of_ne (t : Table α) {name other : String} (a : α) (h : other ≠ name) :
    (t.put name a).get? other = t.get? other := by
  have hname : (other == name) = false := by simpa using h
  induction t with
  | nil => simp [put, get?, List.lookup_cons, hname]
  | cons e t ih =>
    obtain ⟨k, b⟩ := e
    simp only [put]
    split
    · simp [get?, List.lookup_cons, hname]
    · split
      · rename_i hk
        subst hk
        simp [get?, List.lookup_cons, hname]
      · simp only [get?, List.lookup_cons] at ih ⊢
        rw [ih]

theorem mem_names {t : Table α} {name : String} {a : α} (h : t.get? name = some a) :
    name ∈ t.names := by
  obtain ⟨before, after, rfl, -⟩ := List.lookup_eq_some_iff.1 h
  simp [names]

/-- Of several entries with one name the last counts. -/
theorem get?_ofList (entries : List (String × α)) (name : String) :
    (ofList entries).get? name = List.lookup name entries.reverse := by
  have hfold : ∀ (es : List (String × α)) (t : Table α),
      (es.foldl (fun t e => t.put e.1 e.2) t).get? name =
        (List.lookup name es.reverse).or (t.get? name) := by
    intro es
    induction es with
    | nil => intro t; rfl
    | cons e es ih =>
      intro t
      obtain ⟨k, a⟩ := e
      rw [List.foldl_cons, ih, List.reverse_cons, List.lookup_append, Option.or_assoc]
      congr 1
      by_cases hname : name = k
      · subst hname
        simp
      · have hne : (name == k) = false := by simpa using hname
        rw [get?_put_of_ne _ _ hname]
        simp [List.lookup_cons, hne]
  rw [ofList, hfold]
  simp [get?]

theorem mem_put {t : Table α} {name : String} {a : α} {e : String × α} (h : e ∈ t.put name a) :
    e = (name, a) ∨ e ∈ t := by
  induction t with
  | nil => simpa [put] using h
  | cons f t ih =>
    obtain ⟨k, b⟩ := f
    simp only [put] at h
    split at h
    · simpa using h
    · split at h
      · rcases List.mem_cons.1 h with rfl | h
        · exact .inl rfl
        · exact .inr (List.mem_cons_of_mem _ h)
      · rcases List.mem_cons.1 h with rfl | h
        · exact .inr List.mem_cons_self
        · exact (ih h).imp_right (List.mem_cons_of_mem _)

theorem mem_ofList {entries : List (String × α)} {e : String × α} (h : e ∈ ofList entries) :
    e ∈ entries := by
  have hfold : ∀ (es : List (String × α)) (t : Table α),
      e ∈ es.foldl (fun t e => t.put e.1 e.2) t → e ∈ t ∨ e ∈ es := by
    intro es
    induction es with
    | nil => exact fun t h => .inl h
    | cons f es ih =>
      intro t h
      rcases ih _ h with h | h
      · rcases mem_put h with rfl | h
        · exact .inr List.mem_cons_self
        · exact .inl h
      · exact .inr (List.mem_cons_of_mem _ h)
  simpa using hfold entries [] h

end Table

end PredicateTree
