/-!
# Fields

Named entries in the order in which the names were first given.  A later value for a name takes the
place of the earlier one, so `Fields.ofList` and `Fields.merge` keep the first place and the last
value of every name.
-/

namespace SecretMirror

/-- Named entries in the order in which the names were first given.  A list may name something
twice, and then the first entry counts; `set`, `merge` and `ofList` never bring that about. -/
abbrev Fields (α : Type) := List (String × α)

namespace Fields

variable {α β : Type}

/-- The entry under a name, which is the first one if there are several. -/
def get? : Fields α → String → Option α
  | [], _ => none
  | (k, v) :: rest, key => if k = key then some v else get? rest key

def has (fs : Fields α) (key : String) : Bool := (fs.get? key).isSome

/-- Gives a name an entry: in place if the name is there already, at the end otherwise.  The order
of the other names is kept. -/
def set : Fields α → String → α → Fields α
  | [], key, v => [(key, v)]
  | (k, w) :: rest, key, v => if k = key then (k, v) :: rest else (k, w) :: set rest key v

def names (fs : Fields α) : List String := fs.map Prod.fst

/-- Gives names their entries one after another, so a name that is given twice keeps its first place
and its last entry. -/
def merge (fs new : Fields α) : Fields α := new.foldl (fun acc (k, v) => acc.set k v) fs

/-- Fields from a list in which names may repeat.  The last entry of a name counts, in the place of
the first. -/
def ofList (entries : List (String × α)) : Fields α := merge [] entries

/-- Whether two fields bind the same names to the same entries, whatever their order. -/
def agree [DecidableEq α] (fs gs : Fields α) : Bool :=
  fs.names.all (fun k => fs.get? k == gs.get? k) && gs.names.all (fun k => fs.get? k == gs.get? k)

/-! ## Looking up what was set -/

@[simp] theorem get?_nil (key : String) : get? ([] : Fields α) key = none := rfl

theorem get?_cons (k : String) (v : α) (rest : Fields α) (key : String) :
    get? ((k, v) :: rest) key = if k = key then some v else get? rest key := rfl

theorem get?_set (fs : Fields α) (k key : String) (v : α) :
    (fs.set k v).get? key = if k = key then some v else fs.get? key := by
  induction fs with
  | nil => simp [set, get?_cons]
  | cons e rest ih =>
    obtain ⟨k', w⟩ := e
    by_cases h : k' = k
    · subst h
      simp only [set, if_true, get?_cons]
      split <;> rfl
    · simp only [set, if_neg h, get?_cons, ih]
      by_cases h' : k' = key
      · have : k ≠ key := fun e => h (h'.trans e.symm)
        simp [h', this]
      · simp [h']

theorem get?_eq_none_iff {fs : Fields α} {key : String} :
    fs.get? key = none ↔ key ∉ fs.names := by
  induction fs with
  | nil => simp [names]
  | cons e rest ih =>
    obtain ⟨k, v⟩ := e
    simp only [names, List.map_cons, List.mem_cons, not_or, get?_cons] at ih ⊢
    by_cases h : k = key
    · simp [h]
    · have : key ≠ k := fun e => h e.symm
      simp [h, ih, this]

/-- Agreement is agreement under every name, whatever the order.  This is the form in which it is
used. -/
theorem agree_iff [DecidableEq α] {fs gs : Fields α} :
    fs.agree gs = true ↔ ∀ key, fs.get? key = gs.get? key := by
  simp only [agree, Bool.and_eq_true, List.all_eq_true, beq_iff_eq]
  constructor
  · rintro ⟨hf, hg⟩ key
    by_cases h : key ∈ fs.names
    · exact hf key h
    · by_cases h' : key ∈ gs.names
      · exact hg key h'
      · rw [get?_eq_none_iff.2 h, get?_eq_none_iff.2 h']
  · exact fun h => ⟨fun key _ => h key, fun key _ => h key⟩

end Fields

end SecretMirror
