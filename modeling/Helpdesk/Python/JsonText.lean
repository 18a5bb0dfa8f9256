/-
  File:      Helpdesk/Python/JsonText.lean
  Subject:   `json.dumps(value, separators=(",", ":"))`.

  The text is ASCII: every other character is written as the UTF-16 units it is
  made of.
-/
import Helpdesk.Python.Json
import Helpdesk.Python.Uuid
import Mathlib.Data.List.Sort

namespace Helpdesk.Python.Json

/-- A backslash, `u` and four hexadecimal digits. -/
def unicodeEscape (unit : Nat) : List Char :=
  ['\\', 'u', hexDigit (unit / 4096 % 16), hexDigit (unit / 256 % 16), hexDigit (unit / 16 % 16),
    hexDigit (unit % 16)]

/-- One character of a string. -/
def escapeChar (c : Char) : List Char :=
  if c = '"' ∨ c = '\\' then ['\\', c]
  else if c = '\n' then ['\\', 'n']
  else if c = '\r' then ['\\', 'r']
  else if c = '\t' then ['\\', 't']
  else if c.toNat = 8 then ['\\', 'b']
  else if c.toNat = 12 then ['\\', 'f']
  else if 0x20 ≤ c.toNat ∧ c.toNat ≤ 0x7e then [c]
  else if c.toNat < 0x10000 then unicodeEscape c.toNat
  else
    -- a surrogate pair
    unicodeEscape (0xd800 + (c.toNat - 0x10000) / 1024) ++
      unicodeEscape (0xdc00 + (c.toNat - 0x10000) % 1024)

def dumpsString (s : String) : String :=
  String.ofList (['"'] ++ s.toList.flatMap escapeChar ++ ['"'])

/-- Infinities and NaN are written as JavaScript names them. -/
def dumpsFloat : PyFloat → String
  | .inf false => "Infinity"
  | .inf true => "-Infinity"
  | .nan => "NaN"
  | x => x.repr

mutual

/-- `json.dumps(value, separators=(",", ":"))`. -/
def dumps : Json → String
  | null => "null"
  | bool b => if b then "true" else "false"
  | int n => toString n
  | float x => dumpsFloat x
  | str s => dumpsString s
  | list items => "[" ++ dumpsList items ++ "]"
  | dict items => "\x7b" ++ dumpsItems items ++ "\x7d"

def dumpsList : List Json → String
  | [] => ""
  | [a] => dumps a
  | a :: rest => dumps a ++ "," ++ dumpsList rest

def dumpsItems : List (String × Json) → String
  | [] => ""
  | [(k, a)] => dumpsString k ++ ":" ++ dumps a
  | (k, a) :: rest => dumpsString k ++ ":" ++ dumps a ++ "," ++ dumpsItems rest

end

mutual

/-- What `sort_keys` does to a value before it is written. -/
def sortKeys : Json → Json
  | list items => list (sortKeysList items)
  | dict items => dict ((sortKeysItems items).insertionSort fun a b => a.1 ≤ b.1)
  | value => value

def sortKeysList : List Json → List Json
  | [] => []
  | a :: rest => sortKeys a :: sortKeysList rest

def sortKeysItems : List (String × Json) → List (String × Json)
  | [] => []
  | (k, a) :: rest => (k, sortKeys a) :: sortKeysItems rest

end

/-- `json.dumps(value, sort_keys=True, separators=(",", ":"))`. -/
def dumpsSorted (value : Json) : String := dumps (sortKeys value)

example : dumpsSorted (.dict [("b", .list [.int 1, .null]), ("a", .str "é\n")]) =
    "\x7b\"a\":\"\\u00e9\\n\",\"b\":[1,null]\x7d" := by decide +kernel

end Helpdesk.Python.Json
