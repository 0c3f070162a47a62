namespace Skirmish.Content

inductive Cause where
  | required
  | notText
  | emptyText
  | illFormedText
  | notNumber
  | unreadableNumber
  | notInteger
  | unreadableInteger
  | fractional
  | notFinite
  | integerTooLarge
  | notBool
  | unreadableBool
  | notList
  | emptyList
  | notDictionary
  | notObject (className : String)
  | notOneOf (names : List String)
  | notTagged
  | noTag
  | unknownTag (shown : String) (names : List String)
  | tooDeep
  deriving DecidableEq, Repr

def alternatives : List String → String
  | [] => ""
  | [a] => "'" ++ a ++ "'"
  | [a, b] => "'" ++ a ++ "' or '" ++ b ++ "'"
  | a :: rest => "'" ++ a ++ "', " ++ alternatives rest

def enumerated (names : List String) : String :=
  String.intercalate ", " (names.map fun n => "'" ++ n ++ "'")

def Cause.message : Cause → String
  | required => "Field required"
  | notText => "Input should be a valid string"
  | emptyText => "String should have at least 1 character"
  | illFormedText =>
    "Input should be a valid string, unable to parse raw data as a unicode string"
  | notNumber => "Input should be a valid number"
  | unreadableNumber => "Input should be a valid number, unable to parse string as a number"
  | notInteger => "Input should be a valid integer"
  | unreadableInteger => "Input should be a valid integer, unable to parse string as an integer"
  | fractional => "Input should be a valid integer, got a number with a fractional part"
  | notFinite => "Input should be a finite number"
  | integerTooLarge => "Unable to parse input string as an integer, exceeded maximum size"
  | notBool => "Input should be a valid boolean"
  | unreadableBool => "Input should be a valid boolean, unable to interpret input"
  | notList => "Input should be a valid list"
  | emptyList => "List should have at least 1 item after validation, not 0"
  | notDictionary => "Input should be a valid dictionary"
  | notObject className => "Input should be a valid dictionary or instance of " ++ className
  | notOneOf names => "Input should be " ++ alternatives names
  | notTagged => "Input should be a valid dictionary or object to extract fields from"
  | noTag => "Unable to extract tag using discriminator 'type'"
  | unknownTag shown names =>
    "Input tag '" ++ shown ++ "' found using 'type' does not match any of the expected tags: " ++
      enumerated names
  | tooDeep => "Recursion error - maximum validation depth exceeded"

/-- A cause and the way to its place from the outermost document. -/
structure Problem where
  path : List String
  cause : Cause
  deriving DecidableEq, Repr

namespace Problem

def message (p : Problem) : String :=
  match p.path with
  | [] => p.cause.message
  | path => String.intercalate "." path ++ ": " ++ p.cause.message

def under (part : String) (p : Problem) : Problem := { p with path := part :: p.path }

end Problem

inductive Checked (α : Type) where
  | ok (a : α)
  | wrong (problems : List Problem)

namespace Checked

variable {α β : Type}

def fail (c : Cause) : Checked α := wrong [⟨[], c⟩]

def map (f : α → β) : Checked α → Checked β
  | ok a => ok (f a)
  | wrong ps => wrong ps

def ap (f : Checked (α → β)) (x : Checked α) : Checked β :=
  match f, x with
  | ok f, ok a => ok (f a)
  | ok _, wrong qs => wrong qs
  | wrong ps, ok _ => wrong ps
  | wrong ps, wrong qs => wrong (ps ++ qs)

instance : Applicative Checked where
  pure := ok
  map := map
  seq f x := ap f (x ())

def under (part : String) : Checked α → Checked α
  | ok a => ok a
  | wrong ps => wrong (ps.map (Problem.under part))

def all : List (Checked α) → Checked (List α)
  | [] => ok []
  | x :: xs => List.cons <$> x <*> all xs

def problems : Checked α → List Problem
  | ok _ => []
  | wrong ps => ps

end Checked

end Skirmish.Content
