import GemBinder.Symbol

/-! # Registrations with the virtual machine

    The virtual machine finds a method by its name, so that of overloads
    with one name and arity in a class only the last declared is registered
    and the others are shadowed.  Where methods of different classes would
    get one symbol, each gets the symbol with its class in it. -/

namespace GemBinder

/-- A method with the class that declares it. -/
structure Member where
  owner : String
  method : Method
deriving Repr, DecidableEq, Inhabited

namespace Member

/-- What the virtual machine tells methods apart by. -/
def key (m : Member) : String × String × Nat := (m.owner, m.method.name, m.method.arity)

/-- The member as messages show it. -/
def label (m : Member) : String := s!"{m.owner}::{m.method.name}/{m.method.arity}"

end Member

/-- The members of classes in the order of their declarations. -/
def membersOf (classes : List ClassDecl) : List Member :=
  classes.flatMap fun c => c.methods.map fun m => ⟨c.name, m⟩

/-- Members that are reachable and members that later ones have superseded. -/
structure Reach where
  kept : List Member := []
  shadowed : List Member := []
deriving Repr, DecidableEq

/-- Declares one more member, which supersedes the one of its key. -/
def Reach.declare (r : Reach) (m : Member) : Reach where
  kept := r.kept.filter (·.key != m.key) ++ [m]
  shadowed := r.shadowed ++ r.kept.filter (·.key == m.key)

/-- What is reachable after some declarations. -/
def Reach.of (members : List Member) : Reach := members.foldl Reach.declare {}

/-- Whether members of different classes claim a symbol. -/
def isContested (vmPrefix : String) (kept : List Member) (symbol : String) : Bool :=
  match kept.filter (·.method.vmName vmPrefix == symbol) with
  | [] => false
  | first :: more => more.any (·.owner != first.owner)

/-- The symbol of a member among those that are kept. -/
def symbolOf (vmPrefix : String) (kept : List Member) (m : Member) : String :=
  let base := m.method.vmName vmPrefix
  if isContested vmPrefix kept base then m.method.vmNameIn m.owner vmPrefix else base

/-- A member with the symbol of its wrapper. -/
structure Registration extends Member where
  symbol : String
deriving Repr, DecidableEq, Inhabited

/-- The registrations of classes, and those that are shadowed. -/
structure Plan where
  registrations : List Registration
  shadowed : List Registration
deriving Repr, DecidableEq

/-- Plans the registrations of classes. -/
def Plan.of (classes : List ClassDecl) (vmPrefix : String := defaultVmPrefix) : Plan :=
  let reach := Reach.of (membersOf classes)
  let register (m : Member) : Registration := ⟨m, symbolOf vmPrefix reach.kept m⟩
  ⟨reach.kept.map register, reach.shadowed.map register⟩

/-- The labels of the shadowed registrations. -/
def Plan.shadowedLabels (p : Plan) : List String := p.shadowed.map (·.label)

end GemBinder
