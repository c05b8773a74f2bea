/-
# ClientForge.Proofs.Client.Evaluation -- what a call passes at run time

The call of a request function is evaluated where its variables have values: a variable is its
value, a template literal has those of its expressions, and an object is what is assigned to its
members, one assignment after the other.  A later assignment takes the place of an earlier one, so
reading a member is looking for the last (`lastOf?_append`).

What a transport is told is read from the arguments as the transport reads them: axios takes the
body as its second argument for three verbs and from its settings otherwise, and a mutator takes
one object that describes the request, and the request options behind it.
-/
import ClientForge.Proofs.Client.Closedness

namespace ClientForge

set_option autoImplicit false

/-- A value at run time.  A spread-out value gives its members, where it is an object. -/
inductive RunValue where
  | undefined
  /-- A value without members, such as a file. -/
  | thing (number : Nat)
  | literal (v : Value)
  /-- The body of a template literal, and the values of its expressions. -/
  | template (body : String) (values : List RunValue)
  /-- A form that was built from a body. -/
  | form (form : FormBody) (source : RunValue)
  | object (assignments : List (String × RunValue))

/-- What is assigned to the members of an object, in order. -/
abbrev Assignments := List (String × RunValue)

namespace Assignments

/-- What a member is in the end. -/
def lastOf? (key : String) (assignments : Assignments) : Option RunValue :=
  assignments.reverse.lookup key

@[simp] theorem lastOf?_nil (key : String) : lastOf? key [] = none := rfl

@[simp] theorem lastOf?_append (key : String) (first later : Assignments) :
    lastOf? key (first ++ later) = (lastOf? key later).or (lastOf? key first) := by
  unfold lastOf?
  rw [List.reverse_append, List.lookup_append]

@[simp] theorem lastOf?_self (key : String) (v : RunValue) : lastOf? key [(key, v)] = some v := by
  simp [lastOf?]

/-- At most one assignment. -/
@[simp] theorem lastOf?_optional {α : Type} (key assigned : String) (v : α → RunValue)
    (a : Option α) : lastOf? key (a.map fun a => (assigned, v a)).toList =
      if key = assigned then a.map v else none := by
  cases a with
  | none => simp
  | some a => by_cases same : key = assigned <;> simp [lastOf?, same]

/-- A member that nothing is assigned to. -/
theorem lastOf?_eq_none {key : String} {assignments : Assignments}
    (absent : key ∉ assignments.map Prod.fst) : lastOf? key assignments = none := by
  unfold lastOf?
  rw [List.lookup_eq_none_iff]
  intro entry member
  rw [bne_iff_ne]
  rintro rfl
  exact absent (List.mem_map_of_mem (List.mem_reverse.mp member))

theorem lastOf?_other {key other : String} (v : RunValue) (ne : key ≠ other) :
    lastOf? key [(other, v)] = none := by
  simp [lastOf?, ne]

end Assignments

namespace RunValue

open Assignments (lastOf?)

/-- What a value that is spread out assigns. -/
def members : RunValue → Assignments
  | .object assignments => assignments
  | .literal (.map entries) => entries.map fun entry => (entry.1.shown, .literal entry.2)
  | _ => []

/-- The member of an object. -/
def member? (key : String) (v : RunValue) : Option RunValue := lastOf? key v.members

/-- What reading a member gives. -/
def get (key : String) (v : RunValue) : RunValue := (v.member? key).getD .undefined

/-- An object with the members of another behind its own. -/
def overlaid (v later : RunValue) : RunValue := .object (v.members ++ later.members)

@[simp] theorem member?_object (key : String) (assignments : Assignments) :
    (object assignments).member? key = lastOf? key assignments := rfl

end RunValue

/-- The values of variables. -/
abbrev Environment := String → RunValue

/-- A template literal. -/
def Environment.template (ρ : Environment) (body : String) : RunValue :=
  .template body (((Naming.variables? body).getD []).map ρ)

/-- What an entry assigns. -/
def CallEntry.assign (ρ : Environment) : CallEntry → Assignments
  | .preset key value => [(key.shown, .literal value)]
  | .spread name => (ρ name).members
  | .shorthand name => [(name, ρ name)]
  | .merged key name => [(key, (ρ name).overlaid ((ρ "options").get key))]
  | .data name => [("data", ρ name)]
  | .url path => [("url", ρ.template path)]
  | .method verb => [("method", .literal (.str verb.name))]
  | .headers contentType name =>
    [("headers", .object ((contentType.map fun t => ("Content-Type", .literal (.str t))).toList ++
      (name.map fun n => (ρ n).members).getD []))]

/-- What a row of entries assigns. -/
def CallEntry.assignAll (ρ : Environment) (entries : List CallEntry) : Assignments :=
  entries.flatMap (CallEntry.assign ρ)

theorem CallEntry.assignAll_append (ρ : Environment) (entries more : List CallEntry) :
    assignAll ρ (entries ++ more) = assignAll ρ entries ++ assignAll ρ more :=
  List.flatMap_append

theorem CallEntry.assignAll_presets (ρ : Environment) (options : Entries) :
    assignAll ρ (presets options) = (RunValue.literal (.map options)).members := by
  unfold assignAll presets
  rw [List.flatMap_map]
  exact (List.map_eq_flatMap ..).symm

def CallArgument.value (ρ : Environment) : CallArgument → RunValue
  | .route path => ρ.template path
  | .named name => ρ name
  | .undefined => .undefined
  | .object entries => .object (CallEntry.assignAll ρ entries)

/-! ## Transports -/

/-- What a transport is told about a request. -/
structure Delivery where
  url : RunValue
  params : RunValue
  headers : RunValue
  data : RunValue
  /-- The object with the request options. -/
  options : RunValue

/-- The verbs whose functions in axios take the body in front of the settings. -/
def axiosTakesBody : Verb → Bool
  | .post | .put | .patch => true
  | .get | .delete | .options | .head | .trace => false

theorem axiosTakesBody_eq (verb : Verb) :
    axiosTakesBody verb = Contract.sendsBodyAsArgument verb := by
  cases verb <;> rfl

namespace Call

/-- The value of an argument, by its place. -/
def argument (ρ : Environment) (call : Call) (place : Nat) : RunValue :=
  ((call.arguments[place]?).map (CallArgument.value ρ)).getD .undefined

/-- The call as axios reads it. -/
def toAxios (ρ : Environment) (verb : Verb) (call : Call) : Delivery :=
  let settings := call.argument ρ (if axiosTakesBody verb then 2 else 1)
  ⟨call.argument ρ 0, settings.get "params", settings.get "headers",
    if axiosTakesBody verb then call.argument ρ 1 else settings.get "data", settings⟩

/-- The call as a mutator reads it. -/
def toMutator (ρ : Environment) (call : Call) : Delivery :=
  let described := call.argument ρ 0
  ⟨described.get "url", described.get "params", described.get "headers", described.get "data",
    call.argument ρ 1⟩

end Call

namespace RequestFunction

/-- What is sent as the body: what the caller passed, or the form that is built from it. -/
def sent (f : RequestFunction) (body : RunValue) : RunValue :=
  match f.form with
  | some form => .form form body
  | none => body

/-- The variables of a request function at the call, where its parameters have these values. -/
def environment (f : RequestFunction) (ρ : Environment) : Environment := fun name =>
  match f.form with
  | some form => if name = form.kind.name then .form form (ρ form.source) else ρ name
  | none => ρ name

theorem environment_other {f : RequestFunction} {name : String}
    (other : ∀ form, f.form = some form → name ≠ form.kind.name) (ρ : Environment) :
    f.environment ρ name = ρ name := by
  unfold environment
  cases made : f.form with
  | none => rfl
  | some form => exact if_neg (other form made)

end RequestFunction

/-- What the transport of an operation is told. -/
def Contract.delivery (c : Contract) (f : RequestFunction) (ρ : Environment) : Delivery :=
  match c.mutator with
  | none => f.call.toAxios (f.environment ρ) c.verb
  | some _ => f.call.toMutator (f.environment ρ)

end ClientForge
