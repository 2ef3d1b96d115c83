/-
Subtypes and assignments. An answer may be left open: whatever depends on something unknown is
undecided, and then nothing is reported.
-/

import JavaFrontEnd.ClassPath.Hierarchy

namespace JavaFrontEnd.ClassPath

def arraySupertypes : List String :=
  ["java.lang.Object", "java.lang.Cloneable", "java.io.Serializable"]

def isSubtype (path : ClassPath) : Ty → Ty → Option Bool
  | .unknown, _ | _, .unknown | _, .variable _ | .variable _, _ | _, .wildcard | .wildcard, _ =>
    none
  | .primitive first, .primitive second => some (first.widensTo second)
  | .primitive _, _ | _, .primitive _ | .void, _ | _, .void => some false
  | .null, _ => some true
  | _, .null => some false
  | .array _, .class key _ => some (arraySupertypes.contains key)
  | .array (.primitive first), .array (.primitive second) => some (first == second)
  | .array (.primitive _), .array _ | .array _, .array (.primitive _) => some false
  | .array first, .array second => path.isSubtype first second
  | .class .., .array _ => some false
  | .class first _, .class second _ => path.isSubclass first second

/-- A value of the first type may be assigned to a variable of the second, with boxing or unboxing
where needed. Constants that fit into a narrower type are not considered. -/
def isAssignable (path : ClassPath) (source target : Ty) : Option Bool :=
  if source.isIndeterminate || target.isIndeterminate then none
  else match source, target with
    | .primitive first, .primitive second => some (first.widensTo second)
    | .primitive kind, .class .. => path.isSubtype (.ofKey kind.wrapper) target
    | .class key _, .primitive second =>
      match Primitive.ofWrapper? key with
      | some first => some (first.widensTo second)
      | none =>
        if key = "java.lang.Object" || key = "java.lang.Number" then some false
        else (path.type? key).map fun _ => false
    | _, _ => path.isSubtype source target

end JavaFrontEnd.ClassPath

namespace JavaFrontEnd

/-! Choosing among methods of one name. Candidates are tried in three phases: with subtypes only,
then with boxing, then with a variable number of arguments. Of the candidates that are applicable in
the first phase that has any, the most specific one is chosen. A candidate about which nothing can
be said is applicable. -/

inductive Phase where
  | strict | loose | variadic
  deriving DecidableEq, Repr

inductive Selection where
  | found (method : KnownMethod) (phase : Phase)
  /-- Several candidates are applicable and none is more specific than the others. -/
  | ambiguous (methods : List KnownMethod)
  | notApplicable
  /-- Unknown types do not permit a choice. -/
  | undecided
  | noCandidates
  deriving DecidableEq, Repr

namespace KnownMethod

def lastElement? (method : KnownMethod) : Option Ty :=
  method.parameters.getLast?.bind Ty.element?

def accepts (path : ClassPath) (phase : Phase) (argument parameter : Ty) : Bool :=
  match phase with
  | .strict => path.isSubtype argument parameter != some false
  | .loose | .variadic => path.isAssignable argument parameter != some false

def isApplicable (path : ClassPath) (arguments : List Ty) (phase : Phase)
    (method : KnownMethod) : Bool :=
  match phase with
  | .strict | .loose =>
    method.parameters.length == arguments.length &&
      (method.parameters.zip arguments).all fun (parameter, argument) =>
        accepts path phase argument parameter
  | .variadic =>
    let fixed := method.parameters.length - 1
    method.variadic && method.parameters.length ≤ arguments.length + 1 &&
      ((method.parameters.take fixed).zip arguments).all (fun (parameter, argument) =>
        accepts path phase argument parameter) &&
      (arguments.drop fixed).all fun argument =>
        accepts path phase argument (method.lastElement?.getD .unknown)

/-- The type of the parameter at a place, as a call in a phase sees it. -/
def parameterAt? (phase : Phase) (place : Nat) (method : KnownMethod) : Option Ty :=
  if phase = .variadic && method.variadic && method.parameters.length ≤ place + 1 then
    method.lastElement?
  else method.parameters[place]?

/-- Every parameter of the first method is a subtype of that of the second; undecided when no
comparison fails and some comparison is. -/
def isMoreSpecific (path : ClassPath) (phase : Phase) (first second : KnownMethod) :
    Option Bool :=
  let places := List.range (max first.parameters.length second.parameters.length)
  let answers := places.filterMap fun place =>
    match first.parameterAt? phase place, second.parameterAt? phase place with
    | some one, some other => some (path.isSubtype one other)
    | _, _ => none
  if answers.contains (some false) then some false
  else if answers.contains none then none
  else some true

end KnownMethod

namespace Selection

/-- How a method compares with the others, which are those at other places of the list. The first
part tells that no comparison fails, the second that some comparison is undecided; comparisons
after the first failure are not made. -/
def comparison (path : ClassPath) (phase : Phase) (method : KnownMethod) :
    List KnownMethod → Bool × Bool
  | [] => (true, false)
  | other :: rest =>
    match method.isMoreSpecific path phase other with
    | some true => comparison path phase method rest
    | some false => (false, false)
    | none => ((comparison path phase method rest).1, true)

/-- The methods that are at least as specific as all others, as far as that is decided, and
whether some comparison was undecided. `before` are the methods already compared, latest first. -/
def maximal (path : ClassPath) (phase : Phase) (before : List KnownMethod) :
    List KnownMethod → List KnownMethod × Bool
  | [] => ([], false)
  | method :: rest =>
    let (isMaximal, open1) := comparison path phase method (before.reverse ++ rest)
    let (more, open2) := maximal path phase (method :: before) rest
    (if isMaximal then method :: more else more, open1 || open2)

/-- The most specific of several applicable methods. Copies of one signature, inherited and
declared anew, count as one method, for which one with a body stands. -/
def mostSpecific (path : ClassPath) (phase : Phase) (applicable : List KnownMethod) :
    Selection :=
  let (best, isOpen) := maximal path phase [] applicable
  match best with
  | [method] => .found method phase
  | [] => if isOpen then .undecided else .ambiguous (applicable.take 2)
  | first :: rest =>
    if rest.all fun method => decide (method.erasedParameters = first.erasedParameters) then
      .found ((best.find? fun method => !method.isAbstract).getD first) phase
    else if isOpen then .undecided
    else .ambiguous (best.take 2)

def inPhases (path : ClassPath) (candidates : List KnownMethod) (arguments : List Ty) :
    List Phase → Selection
  | [] => .notApplicable
  | phase :: later =>
    match candidates.filter (KnownMethod.isApplicable path arguments phase) with
    | [] => inPhases path candidates arguments later
    | [method] => .found method phase
    | applicable =>
      if arguments.any Ty.isIndeterminate then .undecided
      else mostSpecific path phase applicable

def among (path : ClassPath) (candidates : List KnownMethod) (arguments : List Ty) : Selection :=
  if candidates.isEmpty then .noCandidates
  else inPhases path candidates arguments [.strict, .loose, .variadic]

/-! ### Messages -/

def methodFailure? (selection : Selection) (candidates : List KnownMethod)
    (name receiver : String) (arguments : List Ty) : Option String :=
  let shown := Ty.displayList arguments
  let missing := s!"The method {name}({shown}) is undefined for the type {receiver}"
  match selection with
  | .ambiguous methods =>
    methods.head?.map fun method =>
      s!"The method {method.signature} is ambiguous for the type {receiver}"
  | .notApplicable =>
    match candidates with
    | [only] =>
      some (s!"The method {only.signature} in the type {Ty.simpleName only.owner} is not " ++
        s!"applicable for the arguments ({shown})")
    | _ => some missing
  | .noCandidates => some missing
  | .found .. | .undecided => none

def constructorFailure? (selection : Selection) (typeName : String) (arguments : List Ty) :
    Option String :=
  match selection with
  | .ambiguous constructors =>
    constructors.head?.map fun constructor =>
      s!"The constructor {typeName}({Ty.displayList constructor.parameters}) is ambiguous"
  | .notApplicable | .noCandidates =>
    some s!"The constructor {typeName}({Ty.displayList arguments}) is undefined"
  | .found .. | .undecided => none

end Selection

/-! ### Calls -/

/-- The warning for a call on a raw receiver of a method whose parameters mention the type
parameters of its owner. -/
def uncheckedCall? (path : ClassPath) (receiver : Ty) (chosen : KnownMethod) : Option String := do
  let .class key [] := receiver | none
  let receiverType ← path.type? key
  if receiverType.typeParameters.isEmpty then none
  else
    let owner ← path.type? chosen.owner
    let named := (owner.methodsNamed chosen.name).filter fun method =>
      method.parameters.length == chosen.parameters.length
    let exactly := named.find? fun method =>
      decide (method.erasedParameters = chosen.erasedParameters)
    let declared ← exactly.or named.head?
    if declared.parameters.any (Ty.mentions owner.typeParameters.contains) then
      let shown := Ty.displayList declared.erasedParameters
      some (s!"Type safety: The method {chosen.name}({shown}) belongs to the raw type " ++
        s!"{owner.simpleName}. References to generic type {owner.genericDisplay} should be " ++
        "parameterized")
    else none

/-- The type of a call. What depends on the type parameters of the method is not inferred. -/
def KnownMethod.callType (method : KnownMethod) : Ty :=
  if method.result.mentions method.typeParameters.contains then .unknown else method.result

end JavaFrontEnd
