/-!
Finite maps from names to values, listed by ascending name. Names are ordered by their characters'
code points, which is the order of their bytes.
-/

namespace PageTree

universe u v

abbrev Dictionary (β : Type u) := List (String × β)

namespace Dictionary

variable {β : Type u} {γ : Type v}

def find? (d : Dictionary β) (name : String) : Option β :=
  (d : List (String × β)).lookup name

def names (d : Dictionary β) : List String :=
  List.map Prod.fst d

/-- Sets the value of a name, in the name's place. -/
def insert (name : String) (value : β) : Dictionary β → Dictionary β
  | [] => [(name, value)]
  | (other, old) :: rest =>
    if name = other then (name, value) :: rest
    else if name < other then (name, value) :: (other, old) :: rest
    else (other, old) :: insert name value rest

/-- The map of a list of pairs, of which later ones replace earlier ones. -/
def ofPairs (pairs : List (String × β)) : Dictionary β :=
  pairs.foldl (fun d pair => insert pair.1 pair.2 d) []

@[simp] theorem find?_nil (name : String) : find? ([] : Dictionary β) name = none := rfl

theorem find?_cons (name other : String) (value : β) (d : Dictionary β) :
    find? ((other, value) :: d) name = if name = other then some value else find? d name := by
  by_cases h : name = other
  · simp [find?, h]
  · have : (name == other) = false := by simpa using h
    simp [find?, List.lookup_cons, this, h]

theorem find?_insert (d : Dictionary β) (name other : String) (value : β) :
    find? (insert name value d) other = if other = name then some value else find? d other := by
  induction d with
  | nil => simp [insert, find?_cons]
  | cons pair rest ih =>
    obtain ⟨key, old⟩ := pair
    simp only [insert]
    split
    · next h => subst h; simp only [find?_cons]; split <;> rfl
    · split
      · simp only [find?_cons]
      · next hne _ =>
        simp only [find?_cons, ih]
        by_cases hk : other = key
        · subst hk; simp [Ne.symm hne]
        · simp [hk]

end Dictionary

end PageTree
