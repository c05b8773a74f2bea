/-
# ClientForge.Client.Registry -- flavors by name

Flavors are looked up by name.  Two come with the generator; others are registered under a
name of their own, which need not be the name that the flavor gives itself.  A later
registration under the same name replaces the earlier one.
-/
import ClientForge.Client.Axios
import ClientForge.Client.Swr

namespace ClientForge

set_option autoImplicit false

/-- How a flavor is made for a project. -/
abbrev FlavorMaker := Profile → Flavor

/-- A flavor that an installed package offers: what it is loaded from, and the flavor or the
reason why it cannot be loaded. -/
structure FlavorOffer where
  name : String
  target : String
  maker : Except String FlavorMaker

/-- The flavors by name. -/
structure Registry where
  makers : List (String × FlavorMaker)

namespace Registry

/-- The registry that the generator starts with. -/
def builtIn : Registry := ⟨[("axios", Flavor.axios), ("swr", Flavor.swr)]⟩

def find? (r : Registry) (name : String) : Option FlavorMaker := r.makers.lookup name

/-- The names of all flavors, in order. -/
def available (r : Registry) : List String :=
  (r.makers.map Prod.fst).mergeSort fun a b => decide (a ≤ b)

/-- The registry with a flavor under a name. -/
def insert (r : Registry) (name : String) (maker : FlavorMaker) : Registry :=
  ⟨(name, maker) :: r.makers.filter fun entry => entry.1 != name⟩

/-- Register a flavor; a replacement is left in the log. -/
def register (r : Registry) (name : String) (maker : FlavorMaker) : Traced Registry := do
  if (r.find? name).isSome then
    Traced.record .warning .flavors
      ("Flavor '" ++ name ++ "' is already registered, replacing it")
  return r.insert name maker

/-- The flavor under a name, made for a project. -/
def get (r : Registry) (name : String) (profile : Profile) : Attempt Flavor :=
  match r.find? name with
  | some maker => .ok (maker profile)
  | none => reject (.unknownFlavor name r.available)

/-- Register what installed packages offer.  An offer that cannot be loaded is left in the
log and passed over.  The names are those that were registered. -/
def load (r : Registry) : List FlavorOffer → Traced (Registry × List String)
  | [] => return (r, [])
  | offer :: rest => do
    match offer.maker with
    | .error reason =>
      Traced.record .warning .flavors
        ("Failed to load flavor '" ++ offer.name ++ "': " ++ reason)
      r.load rest
    | .ok maker =>
      let r ← r.register offer.name maker
      Traced.record .info .flavors
        ("Loaded flavor '" ++ offer.name ++ "' from " ++ offer.target)
      let (r, names) ← r.load rest
      return (r, offer.name :: names)

theorem find?_insert (r : Registry) (name other : String) (maker : FlavorMaker) :
    (r.insert name maker).find? other = if other = name then some maker else r.find? other := by
  by_cases h : other = name
  · simp [insert, find?, h]
  · have : ∀ makers : List (String × FlavorMaker),
        (makers.filter fun entry => entry.1 != name).lookup other = makers.lookup other := by
      intro makers
      induction makers with
      | nil => rfl
      | cons entry rest ih =>
        obtain ⟨key, value⟩ := entry
        by_cases hk : key = name
        · subst hk
          simp [List.lookup_cons, beq_eq_false_iff_ne.2 h, ih]
        · simp [List.lookup_cons, hk, ih]
    simp [insert, find?, List.lookup_cons, beq_eq_false_iff_ne.2 h, h, this]

end Registry

end ClientForge
