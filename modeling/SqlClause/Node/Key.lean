import SqlClause.Node.Basic

/-!
# Cache keys

The cache key of a tree is a text for its structure: two trees that differ only in the values they
bind have one key, so a key can stand for compiled SQL. Strings are written with their length in
UTF-8 bytes in front, so that nothing inside them can end them early.

* `Node.cacheKey_mk`: the key of a node, from the keys of its parts.
-/

namespace SqlClause

/-- A string in a key: its length in bytes and the string between single quotes. -/
def keyString (s : String) : String := s.utf8ByteSize.repr ++ "'" ++ s ++ "'"

/-- What is absent, in a key. -/
def keyAbsent : String := "-"

/-- One entry of a map in a key. -/
def keyEntry (e : String × String) : String := keyString e.1 ++ ":" ++ keyString e.2

namespace Attribute

/-- The key of an attribute, from the keys of its parts. -/
def key : Attribute String → String
  | element part => part
  | optionalElement part => part.getD keyAbsent
  | elementList parts => "[" ++ ",".intercalate parts ++ "]"
  | type t => t.outline
  | string s => (s.map keyString).getD keyAbsent
  | boolean b => if b then "1" else "0"
  | integer n => (n.map fun n => n.toNat.repr).getD keyAbsent
  | stringMap m => "\x7b" ++ ",".intercalate (m.entries.map keyEntry) ++ "\x7d"
  | value _ => "?"

end Attribute

namespace Clause

/-- The key of a clause, from the keys of its parts: its tag, and every attribute with its name. -/
def key (c : Clause String) : String :=
  "(" ++ c.tag ++ String.join (c.attributes.map fun a => " " ++ a.1 ++ "=" ++ a.2.key) ++ ")"

end Clause

namespace Node

/-- The text for the structure of a tree. -/
def cacheKey : Node → String := fold fun _ c => c.key

theorem cacheKey_mk (c : Clause Node) : (mk c).cacheKey = (c.map cacheKey).key := fold_mk ..

end Node

end SqlClause
