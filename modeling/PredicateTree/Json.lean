import PredicateTree.Number.Shortest
import PredicateTree.Text.Quoted

/-!
# Json

Trees of data as JSON text writes them. A number without fraction and exponent is kept exactly if
it fits 64 bits; negative ones and others are told apart. Members keep their order, and a name may
come twice.
-/

namespace PredicateTree

inductive Json where
  | null
  | bool (b : Bool)
  | unsigned (n : UInt64)
  | negative (n : Int64)
  | float (x : Binary64)
  | string (s : String)
  | array (items : List Json)
  | object (members : List (String × Json))
deriving Inhabited

namespace Json

/-- What a reader that wants something else says it found. -/
inductive Shape where
  | null
  | bool (b : Bool)
  | integer (n : Int)
  | float (x : Binary64)
  | string (s : String)
  | sequence
  | map
deriving DecidableEq

/-- A number in a message is positional from 10⁻⁵ up to below 10¹⁶, a tie goes to the even digit,
and an exponent has a sign. -/
def Shape.layout : Binary64.Layout := ⟨-5, 16, .toEven, "+"⟩

def Shape.text : Shape → String
  | null => "null"
  | bool b => "boolean `" ++ (if b then "true" else "false") ++ "`"
  | integer n => "integer `" ++ toString n ++ "`"
  | float x => "floating point `" ++ x.textIn layout ++ "`"
  | string s => "string " ++ quoted s
  | sequence => "sequence"
  | map => "map"

def shape : Json → Shape
  | null => .null
  | bool b => .bool b
  | unsigned n => .integer n.toNat
  | negative n => .integer n.toInt
  | float x => .float x
  | string s => .string s
  | array _ => .sequence
  | object _ => .map

mutual

/-- How many arrays and objects stand inside each other. -/
def depth : Json → Nat
  | array items => depthItems items + 1
  | object members => depthMembers members + 1
  | _ => 0

def depthItems : List Json → Nat
  | [] => 0
  | j :: js => max j.depth (depthItems js)

def depthMembers : List (String × Json) → Nat
  | [] => 0
  | (_, j) :: ms => max j.depth (depthMembers ms)

end

mutual

/-- Equality with numbers compared as numbers, so that the two zeros are equal. -/
def agrees : Json → Json → Bool
  | null, null => true
  | bool a, bool b => a == b
  | unsigned m, unsigned n => m == n
  | negative m, negative n => m == n
  | float x, float y => x.equals y
  | string s, string t => s == t
  | array js, array ks => agreesItems js ks
  | object ms, object ns => agreesMembers ms ns
  | _, _ => false

def agreesItems : List Json → List Json → Bool
  | [], [] => true
  | j :: js, k :: ks => j.agrees k && agreesItems js ks
  | _, _ => false

def agreesMembers : List (String × Json) → List (String × Json) → Bool
  | [], [] => true
  | (a, j) :: ms, (b, k) :: ns => a == b && j.agrees k && agreesMembers ms ns
  | _, _ => false

end

end Json

end PredicateTree
