/-! Association lists kept in the order of their keys. Writing to a key that is already
there keeps the key as it was first written and replaces what stands under it. -/
namespace Phrasebook.Sorted

variable {κ ν : Type} [Ord κ]

def insert (key : κ) (value : ν) : List (κ × ν) → List (κ × ν)
  | [] => [(key,value)]
  | (k,v) :: rest =>
    match compare key k with
    | .lt => (key,value) :: (k,v) :: rest
    | .eq => (k,value) :: rest
    | .gt => (k,v) :: insert key value rest

def get? (key : κ) : List (κ × ν) → Option ν
  | [] => none
  | (k,v) :: rest => if compare key k = .eq then some v else get? key rest

def erase (key : κ) (entries : List (κ × ν)) : List (κ × ν) :=
  entries.filter fun entry => compare key entry.1 ≠ .eq

/-- Adds a key to an ordered list of keys, once. -/
def add (key : κ) : List κ → List κ
  | [] => [key]
  | k :: rest =>
    match compare key k with
    | .lt => key :: k :: rest
    | .eq => k :: rest
    | .gt => k :: add key rest

end Phrasebook.Sorted
