import Verdict.Text.Property
import Verdict.Text.Script

namespace Verdict.CharClass

/-- A property name without what loose matching ignores: case, blanks, `_`, `-`, a leading `is`. -/
def looseName (s : List Char) : String :=
  let letters := match s with
    | i :: j :: rest => if i.toLower = 'i' ∧ j.toLower = 's' then rest else s
    | s => s
  String.ofList ((letters.filter fun c => c.toNat < 128 && c != ' ' && c != '_' && c != '-').map
    Char.toLower)

/-- The general categories and their groups under their loose names. -/
def categories : List (List String × CharSet) :=
  [(["any"], .all), (["ascii"], .range '\x00' '\x7f'),
   (["assigned"], .compl (.category .unassigned)),
   (["l", "letter"], Property.letter),
   (["lc", "casedletter"], .ofCategories [.uppercaseLetter, .lowercaseLetter, .titlecaseLetter]),
   (["lu", "uppercaseletter"], .category .uppercaseLetter),
   (["ll", "lowercaseletter"], .category .lowercaseLetter),
   (["lt", "titlecaseletter"], .category .titlecaseLetter),
   (["lm", "modifierletter"], .category .modifierLetter),
   (["lo", "otherletter"], .category .otherLetter),
   (["m", "mark", "combiningmark"], Property.mark),
   (["mn", "nonspacingmark"], .category .nonspacingMark),
   (["mc", "spacingmark"], .category .spacingMark),
   (["me", "enclosingmark"], .category .enclosingMark),
   (["n", "number"], .ofCategories [.decimalNumber, .letterNumber, .otherNumber]),
   (["nd", "decimalnumber", "digit"], .digit),
   (["nl", "letternumber"], .category .letterNumber),
   (["no", "othernumber"], .category .otherNumber),
   (["p", "punctuation", "punct"], .ofCategories [.connectorPunctuation, .dashPunctuation,
     .openPunctuation, .closePunctuation, .initialPunctuation, .finalPunctuation,
     .otherPunctuation]),
   (["pc", "connectorpunctuation"], .category .connectorPunctuation),
   (["pd", "dashpunctuation"], .category .dashPunctuation),
   (["ps", "openpunctuation"], .category .openPunctuation),
   (["pe", "closepunctuation"], .category .closePunctuation),
   (["pi", "initialpunctuation"], .category .initialPunctuation),
   (["pf", "finalpunctuation"], .category .finalPunctuation),
   (["po", "otherpunctuation"], .category .otherPunctuation),
   (["s", "symbol"], .ofCategories [.mathSymbol, .currencySymbol, .modifierSymbol, .otherSymbol]),
   (["sm", "mathsymbol"], .category .mathSymbol),
   (["sc", "currencysymbol"], .category .currencySymbol),
   (["sk", "modifiersymbol"], .category .modifierSymbol),
   (["so", "othersymbol"], .category .otherSymbol),
   (["z", "separator"], .ofCategories [.spaceSeparator, .lineSeparator, .paragraphSeparator]),
   (["zs", "spaceseparator"], .category .spaceSeparator),
   (["zl", "lineseparator"], .category .lineSeparator),
   (["zp", "paragraphseparator"], .category .paragraphSeparator),
   (["c", "other"], .ofCategories [.control, .format, .privateUse, .unassigned]),
   (["cc", "control", "cntrl"], .category .control),
   (["cf", "format"], .category .format),
   (["co", "privateuse"], .category .privateUse),
   (["cn", "unassigned"], .category .unassigned)]

/-- The general category of this loose name. -/
def category? (name : String) : Option CharSet :=
  (categories.find? fun entry => entry.1.contains name).map Prod.snd

/-- The class of this loose name. Three category names come before the properties that share them;
otherwise a property comes first, then a category, then a script. -/
def named? (name : String) : Option CharSet :=
  let property := if name ∈ ["cf", "sc", "lc"] then none else Property.named.lookup name
  property <|> category? name <|> Script.named? name

/-- The class of a loose value of a loose property name. -/
def valued? (property value : String) : Option CharSet :=
  if property ∈ ["gc", "generalcategory"] then category? value
  else if property ∈ ["sc", "script"] then Script.named? value
  else none

def asciiDigit : CharSet := .range '0' '9'

def asciiBlank : CharSet := .range '\t' '\r' ∪ .char ' '

def asciiAlpha : CharSet := .range 'A' 'Z' ∪ .range 'a' 'z'

def asciiWord : CharSet := asciiDigit ∪ asciiAlpha ∪ .char '_'

def asciiPunct : CharSet :=
  .range '!' '/' ∪ .range ':' '@' ∪ .range '[' (Char.ofNat 0x60) ∪ .range '\x7b' '~'

/-- The classes of ASCII that have a name in brackets. -/
def bracketNames : List (String × CharSet) :=
  [("alnum", asciiDigit ∪ asciiAlpha), ("alpha", asciiAlpha), ("ascii", .range '\x00' '\x7f'),
   ("blank", .char '\t' ∪ .char ' '), ("cntrl", .range '\x00' '\x1f' ∪ .char '\x7f'),
   ("digit", asciiDigit), ("graph", .range '!' '~'), ("lower", .range 'a' 'z'),
   ("print", .range ' ' '~'), ("punct", asciiPunct), ("space", asciiBlank),
   ("upper", .range 'A' 'Z'), ("word", asciiWord),
   ("xdigit", asciiDigit ∪ .range 'A' 'F' ∪ .range 'a' 'f')]

end Verdict.CharClass
