import SecretMirror.Secret
import SecretMirror.Time

/-!
# The cache of observed secrets

Secrets that were seen in watch events, API answers and the operator's own writes, under their
namespace and name.  An entry is handed out for at most `ttl` seconds after it was stored; one that
is older is dropped when it is asked for.

The view of a cache is `Cache.find?`, the entry that is stored under a key, whatever its age.
`find?_put`, `find?_forget` and `find?_clear` say what each operation does to it.
-/

namespace SecretMirror

/-- What a secret is stored under: its namespace and its name.  Keys are compared as dictionary keys
are, so 1 and a true value make the same key. -/
structure Key where
  /-- The namespace. -/
  space : Value.Atom
  /-- The name. -/
  name : Value.Atom
  deriving DecidableEq

def Key.ofTexts (space name : String) : Key := ⟨.text space, .text name⟩

/-- The key of a namespace and a name of any shape.  Values with parts make no key; of two of them
the namespace is the one that is reported. -/
def Key.ofValues (space name : Value) : Except Malformed Key :=
  match space.atom?, name.atom? with
  | some space, some name => .ok ⟨space, name⟩
  | none, _ => .error (.notAKey space.kind)
  | _, none => .error (.notAKey name.kind)

theorem Key.ofValues_text (space name : String) :
    Key.ofValues (.text space) (.text name) = .ok (.ofTexts space name) := rfl

/-- The key that a secret is stored under, which is always its own.  It fails for a namespace or a
name that cannot be hashed, since the key is a pair of the two. -/
def Secret.key (s : Secret) : Except Malformed Key := Key.ofValues s.space s.name

/-- A stored secret and when it was stored.  The time is that of the last `put` and is not renewed
when the secret is handed out. -/
structure Entry (τ : Type) where
  secret : Secret
  storedAt : τ

/-- The place of a key in a cache.  It keeps the namespace and the name by which the key was first
given, however often the entry is replaced by one under an equal key. -/
structure Slot (τ : Type) where
  key : Key
  /-- The namespace as it was first given. -/
  space : Value
  /-- The name as it was first given. -/
  name : Value
  /-- What is stored. -/
  entry : Entry τ

/-- Secrets under their keys, at most one under each (`SecretCache`).  Entries are never changed in
place, and an old one is only dropped when it is asked for. -/
structure Cache (τ : Type) where
  /-- For how many seconds an entry is handed out. -/
  ttl : τ
  /-- The places of the keys, in the order in which they were taken. -/
  slots : List (Slot τ) := []

namespace Cache

variable {τ : Type}

def lookup (key : Key) : List (Slot τ) → Option (Entry τ)
  | [] => none
  | slot :: rest => if slot.key = key then some slot.entry else lookup key rest

/-- Stores an entry in the place of a key, or in a new place at the end if the key has none.  The
other entries stay in their order. -/
def store (key : Key) (e : Entry τ) : List (Slot τ) → List (Slot τ)
  | [] => [⟨key, e.secret.space, e.secret.name, e⟩]
  | slot :: rest =>
    if slot.key = key then { slot with entry := e } :: rest else slot :: store key e rest

/-- The entry stored under a key, whatever its age.  What an operation does to a cache is said by
what it does to this. -/
def find? (c : Cache τ) (key : Key) : Option (Entry τ) := lookup key c.slots

/-- Drops the entry under a key, if there is one (`forget`). -/
def forget (c : Cache τ) (key : Key) : Cache τ :=
  { c with slots := c.slots.filter fun slot => slot.key != key }

/-- Stores a secret under a key as of `now`, in place of what was there.  Whether that was newer
makes no difference. -/
def put (c : Cache τ) (key : Key) (secret : Secret) (now : τ) : Cache τ :=
  { c with slots := store key ⟨secret, now⟩ c.slots }

def clear (c : Cache τ) : Cache τ := { c with slots := [] }

/-- Whether there is an entry under a key, whatever its age. -/
def has (c : Cache τ) (key : Key) : Bool := (c.find? key).isSome

/-- Whether an entry is too old to be handed out: more than `ttl` seconds old.  An entry that is
just as old is still good. -/
def isExpired [Sub τ] [LT τ] [DecidableLT τ] (c : Cache τ) (e : Entry τ) (now : τ) : Bool :=
  decide (c.ttl < now - e.storedAt)

/-- The secret under a key if its entry is not too old, and the cache without the entry if it is
(`get`).  Asking for a secret never renews its entry. -/
def get [Sub τ] [LT τ] [DecidableLT τ] (c : Cache τ) (key : Key) (now : τ) :
    Option Secret × Cache τ :=
  match c.find? key with
  | none => (none, c)
  | some e => if c.isExpired e now then (none, c.forget key) else (some e.secret, c)

/-- Stores a secret under its own key (`put`), which fails if its namespace or name makes no key. -/
def putOwn (c : Cache τ) (secret : Secret) (now : τ) : Except Malformed (Cache τ) := do
  let key ← secret.key
  return c.put key secret now

/-- Drops the entry under a namespace and a name of any shape.  Nothing can be wrong with them if
the cache is empty, for then they are not looked at. -/
def forgetValues (c : Cache τ) (space name : Value) : Except Malformed (Cache τ) :=
  if c.slots.isEmpty then .ok c
  else do
    let key ← Key.ofValues space name
    return c.forget key

/-! ## What the operations do to the view -/

theorem lookup_filter (key other : Key) (slots : List (Slot τ)) :
    lookup other (slots.filter fun slot => slot.key != key) =
      if other = key then none else lookup other slots := by
  induction slots with
  | nil => simp [lookup]
  | cons slot rest ih =>
    by_cases ho : other = key
    · subst ho
      rw [if_pos rfl] at ih ⊢
      by_cases hk : slot.key = other
      · simp [hk, ih]
      · simp [hk, lookup, ih]
    · rw [if_neg ho] at ih ⊢
      by_cases hk : slot.key = key
      · have hne : key ≠ other := fun h => ho h.symm
        simp [lookup, hk, hne, ih]
      · simp [hk, lookup, ih]

theorem lookup_store (key other : Key) (e : Entry τ) (slots : List (Slot τ)) :
    lookup other (store key e slots) = if other = key then some e else lookup other slots := by
  induction slots with
  | nil =>
    by_cases h : other = key
    · simp [store, lookup, h]
    · have hne : key ≠ other := fun h' => h h'.symm
      simp [store, lookup, h, hne]
  | cons slot rest ih =>
    by_cases hk : slot.key = key
    · by_cases h : other = key
      · simp [store, lookup, hk, h]
      · have hne : key ≠ other := fun h' => h h'.symm
        simp [store, lookup, hk, h, hne]
    · by_cases hs : slot.key = other
      · have h : other ≠ key := fun h' => hk (hs.trans h')
        rw [store, if_neg hk, lookup, if_pos hs, if_neg h, lookup, if_pos hs]
      · simp [store, lookup, hk, hs, ih]

@[simp] theorem find?_forget (c : Cache τ) (key other : Key) :
    (c.forget key).find? other = if other = key then none else c.find? other :=
  lookup_filter key other c.slots

@[simp] theorem find?_put (c : Cache τ) (key other : Key) (s : Secret) (now : τ) :
    (c.put key s now).find? other = if other = key then some ⟨s, now⟩ else c.find? other :=
  lookup_store key other ⟨s, now⟩ c.slots

@[simp] theorem find?_clear (c : Cache τ) (key : Key) : c.clear.find? key = none := rfl

@[simp] theorem ttl_forget (c : Cache τ) (key : Key) : (c.forget key).ttl = c.ttl := rfl

@[simp] theorem ttl_put (c : Cache τ) (key : Key) (s : Secret) (now : τ) :
    (c.put key s now).ttl = c.ttl := rfl

@[simp] theorem ttl_clear (c : Cache τ) : c.clear.ttl = c.ttl := rfl

end Cache

end SecretMirror
