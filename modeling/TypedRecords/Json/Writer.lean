import TypedRecords.Json.Basic
import TypedRecords.Text.Digits
/-!
# Writing JSON

The compact form, without any blank, and the indented form with two spaces a level. Strings escape the
quote, the backslash and the characters below U+0020; everything else stands for itself.
-/

namespace TypedRecords.Json

def escapeChar (c : Char) : List Char :=
  if c = '"' then ['\\', '"']
  else if c = '\\' then ['\\', '\\']
  else if c.toNat < 0x20 then
    match c with
    | '\n' => ['\\', 'n']
    | '\r' => ['\\', 'r']
    | '\t' => ['\\', 't']
    | _ =>
      if c.toNat = 0x08 then ['\\', 'b']
      else if c.toNat = 0x0C then ['\\', 'f']
      else '\\' :: 'u' :: '0' :: '0' :: Text.hexByte c.toNat
  else [c]

def escape (cs : List Char) : List Char := cs.flatMap escapeChar

def quote (s : String) : List Char := '"' :: (escape s.toList ++ ['"'])

mutual

def compactChars : Json → List Char
  | .null => ['n', 'u', 'l', 'l']
  | .bool true => ['t', 'r', 'u', 'e']
  | .bool false => ['f', 'a', 'l', 's', 'e']
  | .num literal => literal.toList
  | .str s => quote s
  | .arr [] => ['[', ']']
  | .arr (v :: vs) => '[' :: (v.compactChars ++ compactItems vs)
  | .obj [] => ['{', '}']
  | .obj ((k, v) :: rest) => '{' :: (quote k ++ ':' :: (v.compactChars ++ compactMembers rest))

def compactItems : List Json → List Char
  | [] => [']']
  | v :: vs => ',' :: (v.compactChars ++ compactItems vs)

def compactMembers : List (String × Json) → List Char
  | [] => ['}']
  | (k, v) :: rest => ',' :: (quote k ++ ':' :: (v.compactChars ++ compactMembers rest))

end

def compact (v : Json) : String := String.ofList v.compactChars

def newLine (level : Nat) : List Char := '\n' :: List.replicate (2 * level) ' '

mutual

/-- Empty arrays and objects stay on their line. -/
def indentedChars (level : Nat) : Json → List Char
  | .arr [] => ['[', ']']
  | .arr (v :: vs) =>
    '[' :: (newLine (level + 1) ++ indentedChars (level + 1) v ++ indentedItems level vs)
  | .obj [] => ['{', '}']
  | .obj ((k, v) :: rest) =>
    '{' :: (newLine (level + 1) ++ quote k ++ ':' :: ' ' ::
      (indentedChars (level + 1) v ++ indentedMembers level rest))
  | .null => ['n', 'u', 'l', 'l']
  | .bool true => ['t', 'r', 'u', 'e']
  | .bool false => ['f', 'a', 'l', 's', 'e']
  | .num literal => literal.toList
  | .str s => quote s

def indentedItems (level : Nat) : List Json → List Char
  | [] => newLine level ++ [']']
  | v :: vs =>
    ',' :: (newLine (level + 1) ++ indentedChars (level + 1) v ++ indentedItems level vs)

def indentedMembers (level : Nat) : List (String × Json) → List Char
  | [] => newLine level ++ ['}']
  | (k, v) :: rest =>
    ',' :: (newLine (level + 1) ++ quote k ++ ':' :: ' ' ::
      (indentedChars (level + 1) v ++ indentedMembers level rest))

end

def indented (v : Json) : String := String.ofList (v.indentedChars 0)

end TypedRecords.Json
