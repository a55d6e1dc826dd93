/-!
# Ordered entries

Entries pair keys with values and keep the order of insertion.  Setting a key that
is present keeps its place and changes its value.
-/

namespace TextMode

abbrev Entries (Key Value : Type) :=
  List (Key × Value)

namespace Entries

variable {Key Value : Type} [DecidableEq Key]

def insert (key : Key) (value : Value) : Entries Key Value → Entries Key Value
  | [] => [(key, value)]
  | (k, v) :: rest => if k = key then (key, value) :: rest else (k, v) :: insert key value rest

def get? (key : Key) (entries : Entries Key Value) : Option Value :=
  (entries.find? fun entry => entry.1 = key).map Prod.snd

def erase (key : Key) (entries : Entries Key Value) : Entries Key Value :=
  entries.filter fun entry => entry.1 ≠ key

/-- Sets the pairs of a list one after another. -/
def insertAll (pairs : List (Key × Value)) (entries : Entries Key Value) :
    Entries Key Value :=
  pairs.foldl (fun entries pair => insert pair.1 pair.2 entries) entries

def ofList (pairs : List (Key × Value)) : Entries Key Value :=
  insertAll pairs []

theorem get?_insert_self (key : Key) (value : Value) (entries : Entries Key Value) :
    get? key (insert key value entries) = some value := by
  induction entries with
  | nil => simp [insert, get?]
  | cons entry rest ih =>
      by_cases h : entry.1 = key
      · simp [insert, get?, h]
      · simpa [insert, get?, h] using ih

theorem get?_insert_of_ne {key other : Key} (h : other ≠ key) (value : Value)
    (entries : Entries Key Value) :
    get? other (insert key value entries) = get? other entries := by
  induction entries with
  | nil => simp [insert, get?, Ne.symm h]
  | cons entry rest ih =>
      by_cases hkey : entry.1 = key
      · simp [insert, get?, hkey, Ne.symm h]
      · by_cases hother : entry.1 = other
        · simp [insert, get?, hother, h]
        · simpa [insert, get?, hkey, hother] using ih

end Entries

end TextMode
