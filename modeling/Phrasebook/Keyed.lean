/-! Fields in the order in which they were first written. -/
namespace Phrasebook.Keyed

variable {ν : Type}

def get? (key : String) : List (String × ν) → Option ν
  | [] => none
  | (k,value) :: rest => if k = key then some value else get? key rest

/-- Writes a field in its place, or behind the others. -/
def set (key : String) (value : ν) : List (String × ν) → List (String × ν)
  | [] => [(key,value)]
  | (k,v) :: rest => if k = key then (k,value) :: rest else (k,v) :: set key value rest

/-- Removes a field; the last one takes its place. -/
def swapRemove (key : String) (fields : List (String × ν)) : List (String × ν) :=
  match fields.findIdx? (·.1 = key),fields.getLast? with
  | some i,some last => if i + 1 = fields.length then fields.dropLast else (fields.set i last).dropLast
  | _,_ => fields

theorem get?_set (key other : String) (value : ν) (fields : List (String × ν)) :
    get? other (set key value fields) = if key = other then some value else get? other fields := by
  induction fields with
  | nil => simp [set,get?]
  | cons field rest ih =>
    obtain ⟨k,v⟩ := field
    grind [set,get?]

end Phrasebook.Keyed
