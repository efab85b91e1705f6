import RolePlan.Error
import RolePlan.Yaml.Tree

/-!
# Value trees from YAML

`ofTree` forgets tags and makes every key a text. Numbers and truth values may be keys; of two keys
with one text the later gives the value and the earlier the place.
-/

namespace RolePlan.Yaml

def keyText : Tree → Except Error String
  | .scalar (.string text) => .ok text
  | .scalar (.bool b) => .ok (Value.boolText b)
  | .scalar .null => .error (.document (.unsupportedKey (Tree.scalar .null).shown))
  | .scalar number => .ok ((number.numberText?).getD "")
  | tree => .error (.document (.unsupportedKey tree.shown))

def ofScalar : Scalar → Except Error Value
  | .null => .ok .null
  | .bool b => .ok (.bool b)
  | .int n => .ok (.int n)
  | .float x => .ok (.float x)
  | .string text => .ok (.string text)
  | number => .error (.document (.nonFinite ((number.numberText?).getD "")))

mutual

def ofTree : Tree → Except Error Value
  | .scalar value => ofScalar value
  | .sequence items => do return .list (← ofItems items)
  | .mapping entries => do return .object (← ofEntries .empty entries)
  | .tagged _ content => ofTree content

def ofItems : List Tree → Except Error (List Value)
  | [] => .ok []
  | tree :: rest => do
      let value ← ofTree tree
      return value :: (← ofItems rest)

def ofEntries (done : Table Value) : List (Tree × Tree) → Except Error (Table Value)
  | [] => .ok done
  | (key, tree) :: rest => do
      let name ← keyText key
      let value ← ofTree tree
      ofEntries (done.put name value) rest

end

def read (text : String) : Except Error Value :=
  match Tree.read text with
  | .error reason => .error (.yaml reason)
  | .ok tree => ofTree tree

end RolePlan.Yaml
