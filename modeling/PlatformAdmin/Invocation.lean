/-!
# Invocations

An invocation is what a command is given: its positional arguments and its flags.  Flags are a
finite map from names to truth values.  They are kept in increasing order of name with each
name once, so that two flag maps are equal exactly when they hold the same entries.
-/

set_option autoImplicit false

namespace PlatformAdmin

/-- Flags by name, in increasing order of name. -/
structure Flags where
  entries : List (String × Bool) := []
  deriving DecidableEq, Repr

namespace Flags

/-- Puts an entry into its place in an ordered list; an entry of the same name gives way. -/
def setIn (name : String) (value : Bool) : List (String × Bool) → List (String × Bool)
  | [] => [(name, value)]
  | entry :: rest =>
    if name = entry.1 then (name, value) :: rest
    else if name < entry.1 then (name, value) :: entry :: rest
    else entry :: setIn name value rest

/-- The flags with one of them set. -/
def set (flags : Flags) (name : String) (value : Bool) : Flags :=
  ⟨setIn name value flags.entries⟩

/-- The flags of a list of settings, made in order. -/
def ofList (settings : List (String × Bool)) : Flags :=
  settings.foldl (fun flags s => flags.set s.1 s.2) {}

/-- The value of a flag; a flag that was never set is off. -/
def get (flags : Flags) (name : String) : Bool :=
  (flags.entries.lookup name).getD false

/-- What a look-up finds in a list that begins with an entry. -/
theorem lookup_cons_eq_ite (key name : String) (value : Bool) (rest : List (String × Bool)) :
    ((name, value) :: rest).lookup key = if key = name then some value else rest.lookup key := by
  by_cases h : key = name
  · simp [h]
  · have hb : (key == name) = false := by simp [h]
    simp [List.lookup_cons, h, hb]

/-- A flag reads as it was set last, and setting it leaves the others alone. -/
@[simp] theorem get_set (flags : Flags) (name other : String) (value : Bool) :
    (flags.set name value).get other = if other = name then value else flags.get other := by
  have key : ∀ entries : List (String × Bool),
      (setIn name value entries).lookup other
        = if other = name then some value else entries.lookup other := by
    intro entries
    induction entries with
    | nil => simp [setIn, lookup_cons_eq_ite]
    | cons entry rest ih =>
      obtain ⟨k, v⟩ := entry
      unfold setIn
      simp only
      split
      · rename_i h
        subst h
        simp only [lookup_cons_eq_ite]
        split <;> rfl
      · split
        · simp only [lookup_cons_eq_ite]
        · rename_i hk _
          simp only [lookup_cons_eq_ite, ih]
          by_cases ho : other = name
          · subst ho
            simp [hk]
          · simp [ho]
  simp only [get, set, key]
  split <;> rfl

end Flags

/-- The arguments and flags that a command is given. -/
structure Invocation where
  args : List String := []
  flags : Flags := {}
  deriving DecidableEq, Repr

namespace Invocation

/-- The argument at a position, if there is one. -/
def arg? (inv : Invocation) (index : Nat) : Option String :=
  inv.args[index]?

/-- The argument at a position; one that is not there is empty. -/
def arg (inv : Invocation) (index : Nat) : String :=
  (inv.arg? index).getD ""

/-- The number of arguments. -/
def size (inv : Invocation) : Nat :=
  inv.args.length

/-- The flag that lets a destructive command go ahead without asking. -/
def forceFlag : String := "f"

/-- Whether the command may go ahead without asking. -/
def isForced (inv : Invocation) : Bool :=
  inv.flags.get forceFlag

end Invocation

/-- A command was given a wrong number of arguments. -/
structure ArgumentCountError where
  command : String
  /-- The numbers that would have been right, in words. -/
  expected : String
  got : Nat
  deriving DecidableEq, Repr

/-- What the user is told about it. -/
def ArgumentCountError.message (e : ArgumentCountError) : String :=
  "Incorrect Usage: '" ++ e.command ++ "' takes " ++ e.expected ++ " argument(s), got "
    ++ toString e.got

namespace Invocation

/-- Numbers of arguments, in words. -/
def countsInWords (counts : List Nat) : String :=
  " or ".intercalate (counts.map toString)

/-- Checks that the number of arguments is one of those a command allows. -/
def checkCount (inv : Invocation) (command : String) (allowed : List Nat) :
    Except ArgumentCountError Unit :=
  if inv.size ∈ allowed then .ok () else .error ⟨command, countsInWords allowed, inv.size⟩

end Invocation

end PlatformAdmin
