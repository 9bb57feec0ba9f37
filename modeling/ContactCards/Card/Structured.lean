import ContactCards.Text.Blank

/-!
Values made of components: names, addresses, organizations and genders. Names and addresses have
a fixed list of components, each a list of texts.
-/

namespace ContactCards

/-- The components of a person's name. -/
inductive NamePart where
  | family
  | given
  | additional
  | honorificBefore
  | honorificAfter
  deriving DecidableEq, Repr

/-- The components of an address. -/
inductive AddressPart where
  | poBox
  | extended
  | street
  | locality
  | region
  | postalCode
  | country
  deriving DecidableEq, Repr

namespace NamePart

/-- The local name of the element that a component is read from. -/
def element : NamePart → String
  | family => "surname"
  | given => "given"
  | additional => "additional"
  | honorificBefore => "prefix"
  | honorificAfter => "suffix"

/-- All components, in the order of the property. -/
def all : List NamePart :=
  [family, given, additional, honorificBefore, honorificAfter]

def ofElement? (element : String) : Option NamePart :=
  all.find? (·.element == element)

end NamePart

namespace AddressPart

/-- The local name of the element that a component is read from. -/
def element : AddressPart → String
  | poBox => "pobox"
  | extended => "ext"
  | street => "street"
  | locality => "locality"
  | region => "region"
  | postalCode => "code"
  | country => "country"

/-- All components, in the order of the property. -/
def all : List AddressPart :=
  [poBox, extended, street, locality, region, postalCode, country]

def ofElement? (element : String) : Option AddressPart :=
  all.find? (·.element == element)

end AddressPart

/-- A person's name, each component a list of texts. -/
structure PersonName where
  family : List String
  given : List String
  additional : List String
  honorificsBefore : List String
  honorificsAfter : List String
  deriving DecidableEq, Repr

namespace PersonName

def empty : PersonName := ⟨[], [], [], [], []⟩

/-- A name with one family name and one given name. -/
def simple (family given : String) : PersonName :=
  { empty with family := [family], given := [given] }

/-- The texts of a component. -/
def part (n : PersonName) : NamePart → List String
  | .family => n.family
  | .given => n.given
  | .additional => n.additional
  | .honorificBefore => n.honorificsBefore
  | .honorificAfter => n.honorificsAfter

/-- Adds a text to a component. -/
def add (n : PersonName) : NamePart → String → PersonName
  | .family, s => { n with family := n.family ++ [s] }
  | .given, s => { n with given := n.given ++ [s] }
  | .additional, s => { n with additional := n.additional ++ [s] }
  | .honorificBefore, s => { n with honorificsBefore := n.honorificsBefore ++ [s] }
  | .honorificAfter, s => { n with honorificsAfter := n.honorificsAfter ++ [s] }

theorem part_add (n : PersonName) (p q : NamePart) (s : String) :
    (n.add p s).part q = n.part q ++ if p = q then [s] else [] := by
  cases p <;> cases q <;> simp [add, part]

def isEmpty (n : PersonName) : Bool :=
  NamePart.all.all (n.part · |>.isEmpty)

/-- The given names, then the family names. -/
def display (n : PersonName) : String :=
  " ".intercalate ([n.given, n.family].filter (! ·.isEmpty) |>.map (" ".intercalate ·))

/-- The components as the property writes them. -/
def render (n : PersonName) : String :=
  ";".intercalate (NamePart.all.map fun p => ",".intercalate (n.part p))

end PersonName

/-- An address, each component a list of texts. -/
structure Address where
  poBox : List String
  extended : List String
  street : List String
  locality : List String
  region : List String
  postalCode : List String
  country : List String
  deriving DecidableEq, Repr

namespace Address

def empty : Address := ⟨[], [], [], [], [], [], []⟩

/-- The texts of a component. -/
def part (a : Address) : AddressPart → List String
  | .poBox => a.poBox
  | .extended => a.extended
  | .street => a.street
  | .locality => a.locality
  | .region => a.region
  | .postalCode => a.postalCode
  | .country => a.country

/-- Adds a text to a component. -/
def add (a : Address) : AddressPart → String → Address
  | .poBox, s => { a with poBox := a.poBox ++ [s] }
  | .extended, s => { a with extended := a.extended ++ [s] }
  | .street, s => { a with street := a.street ++ [s] }
  | .locality, s => { a with locality := a.locality ++ [s] }
  | .region, s => { a with region := a.region ++ [s] }
  | .postalCode, s => { a with postalCode := a.postalCode ++ [s] }
  | .country, s => { a with country := a.country ++ [s] }

theorem part_add (a : Address) (p q : AddressPart) (s : String) :
    (a.add p s).part q = a.part q ++ if p = q then [s] else [] := by
  cases p <;> cases q <;> simp [add, part]

def isEmpty (a : Address) : Bool :=
  AddressPart.all.all (a.part · |>.isEmpty)

/-- The components of a place on one line, from the street on. -/
def display (a : Address) : String :=
  ", ".intercalate (a.street ++ a.locality ++ a.region ++ a.postalCode ++ a.country)

/-- The components as the property writes them. -/
def render (a : Address) : String :=
  ";".intercalate (AddressPart.all.map fun p => ",".intercalate (a.part p))

end Address

/-- An organization and its units, the largest first. -/
structure Organization where
  name : String
  units : List String
  deriving DecidableEq, Repr

namespace Organization

/-- An organization from its components, the name first. -/
def ofComponents? : List String → Option Organization
  | [] => none
  | name :: units => some ⟨name, units⟩

def components (o : Organization) : List String :=
  o.name :: o.units

def isEmpty (o : Organization) : Bool :=
  o.name == "" && o.units.isEmpty

def render (o : Organization) : String :=
  ";".intercalate o.components

end Organization

inductive Sex where
  | male
  | female
  | other
  | notApplicable
  | unknown
  deriving DecidableEq, Repr

namespace Sex

def letter : Sex → Char
  | male => 'M'
  | female => 'F'
  | other => 'O'
  | notApplicable => 'N'
  | unknown => 'U'

/-- The sex that a letter of either case stands for. -/
def ofLetter? (c : Char) : Option Sex :=
  [male, female, other, notApplicable, unknown].find? (·.letter == c.toUpper)

/-- The sex that a text stands for, blanks around the letter not counting. -/
def parse? (s : String) : Option Sex :=
  match trimChars s.toList with
  | [c] => ofLetter? c
  | _ => none

end Sex

/-- Sex, and gender identity as free text. -/
structure Gender where
  sex : Option Sex
  identity : Option String
  deriving DecidableEq, Repr

namespace Gender

def render (g : Gender) : String :=
  ((g.sex.map (·.letter.toString)).getD "") ++ ((g.identity.map (";" ++ ·)).getD "")

end Gender

end ContactCards
