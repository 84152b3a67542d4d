import Phrasebook.Logging.Filter
import Phrasebook.Text.Visible

/-! Log records and the lines they are written as. -/
namespace Phrasebook.Logging

structure Record where
  level : Level
  target : String
  message : String
  fields : List (String × String) := []
deriving DecidableEq, Repr

namespace Record

/-- Characters that steer a terminal are spelled out. -/
def spell (c : Char) : List Char :=
  if c = '\x07' then "\\x07".toList
  else if c = '\x08' then "\\x08".toList
  else if c = '\x0c' then "\\x0c".toList
  else if c = '\x1b' then "\\x1b".toList
  else if c = '\x7f' then "\\x7f".toList
  else if 0x80 ≤ c.toNat && c.toNat < 0xa0 then
    '\\' :: 'u' :: '\x7b' :: Nat.toDigits 16 c.toNat ++ ['\x7d']
  else [c]

def spelled (text : String) : String := String.ofList (text.toList.flatMap spell)

/-- Levels stand to the right in a column of five. -/
def padded (level : Level) : String :=
  String.join (List.replicate (5 - level.label.length) " ") ++ level.label

def line (time : String) (record : Record) : String :=
  time ++ " " ++ padded record.level ++ " " ++ record.target ++ ": " ++ spelled record.message ++
    String.join (record.fields.map fun (name,value) => " " ++ name ++ "=" ++ value)

end Record
end Phrasebook.Logging
