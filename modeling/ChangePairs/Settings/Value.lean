import ChangePairs.Settings.Scalar

/-!
Values as a settings file holds them: scalars, lists, pairs, sets and mappings.  The written form
of a value is made of the written forms of its parts; as a text of its own, a text stands for
itself.
-/

namespace ChangePairs

inductive Value where
  | scalar (s : Scalar)
  | list (items : List Value)
  | pair (first second : Value)
  /-- Scalars of which no two are the same key. -/
  | set (items : List Scalar)
  | mapping (entries : List (Scalar × Value))
  /-- A list or a mapping again inside of itself. -/
  | enclosing (isList : Bool)
deriving Inhabited

namespace Value

def ofText (t : Text) : Value := .scalar (.text t)

end Value

/-- Values under keys, in the order in which the keys first came. -/
abbrev Mapping := List (Scalar × Value)

namespace Mapping

/-- Puts a value under a key.  A key that is present keeps its place and loses its value. -/
def put (key : Scalar) (v : Value) : Mapping → Mapping
  | [] => [(key, v)]
  | (k, present) :: rest =>
    if k.isSameKey key then (k, v) :: rest else (k, present) :: put key v rest

/-- The mapping of entries in their order; of two under one key the later one counts. -/
def ofEntries (entries : List (Scalar × Value)) : Mapping :=
  entries.foldl (fun m (key, v) => put key v m) []

def get? (key : Text) : Mapping → Option Value
  | [] => none
  | (k, v) :: rest => if k.isSameKey (.text key) then some v else get? key rest

theorem get?_put_self (key : Text) (v : Value) (m : Mapping) :
    get? key (put (.text key) v m) = some v := by
  induction m with
  | nil => simp [put, get?, Scalar.isSameKey]
  | cons entry rest ih =>
    simp only [put]
    split
    · next h => simp [get?, h]
    · next h => simp [get?, h, ih]

theorem get?_put_of_ne {key other : Text} (h : other ≠ key) (v : Value) (m : Mapping) :
    get? other (put (.text key) v m) = get? other m := by
  induction m with
  | nil => simp [put, get?, Scalar.isSameKey, Ne.symm h]
  | cons entry rest ih =>
    simp only [put]
    split
    · next hk =>
      have he : ¬ entry.1 = .text other := by
        rw [Scalar.isSameKey_text.1 hk]
        simpa using Ne.symm h
      simp [get?, Scalar.isSameKey_text, he]
    · simp only [get?, ih]

end Mapping

namespace Value

mutual

def written : Value → Except DigitLimitExceeded Text
  | .scalar s => s.written
  | .list items => do return '[' :: Text.join ", ".toList (← writtenItems items) ++ [']']
  | .pair a b => do return '(' :: (← a.written) ++ ", ".toList ++ (← b.written) ++ [')']
  | .set [] => .ok "set()".toList
  | .set items => do
    return '\x7b' :: Text.join ", ".toList (← items.mapM Scalar.written) ++ ['\x7d']
  | .mapping entries => do
    return '\x7b' :: Text.join ", ".toList (← writtenEntries entries) ++ ['\x7d']
  | .enclosing isList => .ok (if isList then "[...]".toList else "\x7b...\x7d".toList)

def writtenItems : List Value → Except DigitLimitExceeded (List Text)
  | [] => pure []
  | v :: rest => do return (← written v) :: (← writtenItems rest)

def writtenEntries : List (Scalar × Value) → Except DigitLimitExceeded (List Text)
  | [] => pure []
  | (key, v) :: rest => do
    return ((← key.written) ++ ": ".toList ++ (← written v)) :: (← writtenEntries rest)

end

end Value
end ChangePairs
