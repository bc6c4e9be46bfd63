/-!
# Names of characters

* `CharacterNames` — what characters are called; whatever reads a name is written for any such table, since the
  table itself grows with each version of the character set;
* `asciiNames`, `latinNames`, `lowControlNames`, `highControlNames` — the names of the characters of the first two
  blocks, in order, and `latinNamed?` — the character of these with a name, in whatever case that is written.
-/

namespace DependencyQuery.Text

/-- What characters are called. -/
class CharacterNames where
  /-- The character with a name, if there is one. -/
  named? : String → Option Char

/-- The names of the characters from the space on. -/
def asciiNames : List String := [
    "SPACE", "EXCLAMATION MARK", "QUOTATION MARK", "NUMBER SIGN", "DOLLAR SIGN", "PERCENT SIGN",
    "AMPERSAND", "APOSTROPHE", "LEFT PARENTHESIS", "RIGHT PARENTHESIS", "ASTERISK", "PLUS SIGN",
    "COMMA", "HYPHEN-MINUS", "FULL STOP", "SOLIDUS", "DIGIT ZERO", "DIGIT ONE", "DIGIT TWO",
    "DIGIT THREE", "DIGIT FOUR", "DIGIT FIVE", "DIGIT SIX", "DIGIT SEVEN", "DIGIT EIGHT",
    "DIGIT NINE", "COLON", "SEMICOLON", "LESS-THAN SIGN", "EQUALS SIGN", "GREATER-THAN SIGN",
    "QUESTION MARK", "COMMERCIAL AT", "LATIN CAPITAL LETTER A", "LATIN CAPITAL LETTER B",
    "LATIN CAPITAL LETTER C", "LATIN CAPITAL LETTER D", "LATIN CAPITAL LETTER E",
    "LATIN CAPITAL LETTER F", "LATIN CAPITAL LETTER G", "LATIN CAPITAL LETTER H",
    "LATIN CAPITAL LETTER I", "LATIN CAPITAL LETTER J", "LATIN CAPITAL LETTER K",
    "LATIN CAPITAL LETTER L", "LATIN CAPITAL LETTER M", "LATIN CAPITAL LETTER N",
    "LATIN CAPITAL LETTER O", "LATIN CAPITAL LETTER P", "LATIN CAPITAL LETTER Q",
    "LATIN CAPITAL LETTER R", "LATIN CAPITAL LETTER S", "LATIN CAPITAL LETTER T",
    "LATIN CAPITAL LETTER U", "LATIN CAPITAL LETTER V", "LATIN CAPITAL LETTER W",
    "LATIN CAPITAL LETTER X", "LATIN CAPITAL LETTER Y", "LATIN CAPITAL LETTER Z",
    "LEFT SQUARE BRACKET", "REVERSE SOLIDUS", "RIGHT SQUARE BRACKET", "CIRCUMFLEX ACCENT",
    "LOW LINE", "GRAVE ACCENT", "LATIN SMALL LETTER A", "LATIN SMALL LETTER B",
    "LATIN SMALL LETTER C", "LATIN SMALL LETTER D", "LATIN SMALL LETTER E", "LATIN SMALL LETTER F",
    "LATIN SMALL LETTER G", "LATIN SMALL LETTER H", "LATIN SMALL LETTER I", "LATIN SMALL LETTER J",
    "LATIN SMALL LETTER K", "LATIN SMALL LETTER L", "LATIN SMALL LETTER M", "LATIN SMALL LETTER N",
    "LATIN SMALL LETTER O", "LATIN SMALL LETTER P", "LATIN SMALL LETTER Q", "LATIN SMALL LETTER R",
    "LATIN SMALL LETTER S", "LATIN SMALL LETTER T", "LATIN SMALL LETTER U", "LATIN SMALL LETTER V",
    "LATIN SMALL LETTER W", "LATIN SMALL LETTER X", "LATIN SMALL LETTER Y", "LATIN SMALL LETTER Z",
    "LEFT CURLY BRACKET", "VERTICAL LINE", "RIGHT CURLY BRACKET", "TILDE"]

/-- The names of the characters from the no-break space on. -/
def latinNames : List String := [
    "NO-BREAK SPACE", "INVERTED EXCLAMATION MARK", "CENT SIGN", "POUND SIGN", "CURRENCY SIGN",
    "YEN SIGN", "BROKEN BAR", "SECTION SIGN", "DIAERESIS", "COPYRIGHT SIGN",
    "FEMININE ORDINAL INDICATOR", "LEFT-POINTING DOUBLE ANGLE QUOTATION MARK", "NOT SIGN",
    "SOFT HYPHEN", "REGISTERED SIGN", "MACRON", "DEGREE SIGN", "PLUS-MINUS SIGN", "SUPERSCRIPT TWO",
    "SUPERSCRIPT THREE", "ACUTE ACCENT", "MICRO SIGN", "PILCROW SIGN", "MIDDLE DOT", "CEDILLA",
    "SUPERSCRIPT ONE", "MASCULINE ORDINAL INDICATOR", "RIGHT-POINTING DOUBLE ANGLE QUOTATION MARK",
    "VULGAR FRACTION ONE QUARTER", "VULGAR FRACTION ONE HALF", "VULGAR FRACTION THREE QUARTERS",
    "INVERTED QUESTION MARK", "LATIN CAPITAL LETTER A WITH GRAVE",
    "LATIN CAPITAL LETTER A WITH ACUTE", "LATIN CAPITAL LETTER A WITH CIRCUMFLEX",
    "LATIN CAPITAL LETTER A WITH TILDE", "LATIN CAPITAL LETTER A WITH DIAERESIS",
    "LATIN CAPITAL LETTER A WITH RING ABOVE", "LATIN CAPITAL LETTER AE",
    "LATIN CAPITAL LETTER C WITH CEDILLA", "LATIN CAPITAL LETTER E WITH GRAVE",
    "LATIN CAPITAL LETTER E WITH ACUTE", "LATIN CAPITAL LETTER E WITH CIRCUMFLEX",
    "LATIN CAPITAL LETTER E WITH DIAERESIS", "LATIN CAPITAL LETTER I WITH GRAVE",
    "LATIN CAPITAL LETTER I WITH ACUTE", "LATIN CAPITAL LETTER I WITH CIRCUMFLEX",
    "LATIN CAPITAL LETTER I WITH DIAERESIS", "LATIN CAPITAL LETTER ETH",
    "LATIN CAPITAL LETTER N WITH TILDE", "LATIN CAPITAL LETTER O WITH GRAVE",
    "LATIN CAPITAL LETTER O WITH ACUTE", "LATIN CAPITAL LETTER O WITH CIRCUMFLEX",
    "LATIN CAPITAL LETTER O WITH TILDE", "LATIN CAPITAL LETTER O WITH DIAERESIS",
    "MULTIPLICATION SIGN", "LATIN CAPITAL LETTER O WITH STROKE",
    "LATIN CAPITAL LETTER U WITH GRAVE", "LATIN CAPITAL LETTER U WITH ACUTE",
    "LATIN CAPITAL LETTER U WITH CIRCUMFLEX", "LATIN CAPITAL LETTER U WITH DIAERESIS",
    "LATIN CAPITAL LETTER Y WITH ACUTE", "LATIN CAPITAL LETTER THORN", "LATIN SMALL LETTER SHARP S",
    "LATIN SMALL LETTER A WITH GRAVE", "LATIN SMALL LETTER A WITH ACUTE",
    "LATIN SMALL LETTER A WITH CIRCUMFLEX", "LATIN SMALL LETTER A WITH TILDE",
    "LATIN SMALL LETTER A WITH DIAERESIS", "LATIN SMALL LETTER A WITH RING ABOVE",
    "LATIN SMALL LETTER AE", "LATIN SMALL LETTER C WITH CEDILLA", "LATIN SMALL LETTER E WITH GRAVE",
    "LATIN SMALL LETTER E WITH ACUTE", "LATIN SMALL LETTER E WITH CIRCUMFLEX",
    "LATIN SMALL LETTER E WITH DIAERESIS", "LATIN SMALL LETTER I WITH GRAVE",
    "LATIN SMALL LETTER I WITH ACUTE", "LATIN SMALL LETTER I WITH CIRCUMFLEX",
    "LATIN SMALL LETTER I WITH DIAERESIS", "LATIN SMALL LETTER ETH",
    "LATIN SMALL LETTER N WITH TILDE", "LATIN SMALL LETTER O WITH GRAVE",
    "LATIN SMALL LETTER O WITH ACUTE", "LATIN SMALL LETTER O WITH CIRCUMFLEX",
    "LATIN SMALL LETTER O WITH TILDE", "LATIN SMALL LETTER O WITH DIAERESIS", "DIVISION SIGN",
    "LATIN SMALL LETTER O WITH STROKE", "LATIN SMALL LETTER U WITH GRAVE",
    "LATIN SMALL LETTER U WITH ACUTE", "LATIN SMALL LETTER U WITH CIRCUMFLEX",
    "LATIN SMALL LETTER U WITH DIAERESIS", "LATIN SMALL LETTER Y WITH ACUTE",
    "LATIN SMALL LETTER THORN", "LATIN SMALL LETTER Y WITH DIAERESIS"]

/-- The names of the control characters from the first character on. -/
def lowControlNames : List (List String) := [
    ["NULL", "NUL"], ["START OF HEADING", "SOH"], ["START OF TEXT", "STX"], ["END OF TEXT", "ETX"],
    ["END OF TRANSMISSION", "EOT"], ["ENQUIRY", "ENQ"], ["ACKNOWLEDGE", "ACK"], ["ALERT", "BEL"],
    ["BACKSPACE", "BS"], ["CHARACTER TABULATION", "HORIZONTAL TABULATION", "HT", "TAB"],
    ["LINE FEED", "NEW LINE", "END OF LINE", "EOL", "LF", "NL"],
    ["LINE TABULATION", "VERTICAL TABULATION", "VT"], ["FORM FEED", "FF"], ["CARRIAGE RETURN", "CR"],
    ["SHIFT OUT", "LOCKING-SHIFT ONE", "SO"], ["SHIFT IN", "LOCKING-SHIFT ZERO", "SI"],
    ["DATA LINK ESCAPE", "DLE"], ["DEVICE CONTROL ONE", "DC1"], ["DEVICE CONTROL TWO", "DC2"],
    ["DEVICE CONTROL THREE", "DC3"], ["DEVICE CONTROL FOUR", "DC4"], ["NEGATIVE ACKNOWLEDGE", "NAK"],
    ["SYNCHRONOUS IDLE", "SYN"], ["END OF TRANSMISSION BLOCK", "ETB"], ["CANCEL", "CAN"],
    ["END OF MEDIUM", "EOM"], ["SUBSTITUTE", "SUB"], ["ESCAPE", "ESC"],
    ["INFORMATION SEPARATOR FOUR", "FILE SEPARATOR", "FS"],
    ["INFORMATION SEPARATOR THREE", "GROUP SEPARATOR", "GS"],
    ["INFORMATION SEPARATOR TWO", "RECORD SEPARATOR", "RS"],
    ["INFORMATION SEPARATOR ONE", "UNIT SEPARATOR", "US"]]

/-- The names of the control characters from the delete character on. -/
def highControlNames : List (List String) := [
    ["DELETE", "DEL"], ["PADDING CHARACTER", "PAD"], ["HIGH OCTET PRESET", "HOP"],
    ["BREAK PERMITTED HERE", "BPH"], ["NO BREAK HERE", "NBH"], ["INDEX", "IND"], ["NEXT LINE", "NEL"],
    ["START OF SELECTED AREA", "SSA"], ["END OF SELECTED AREA", "ESA"],
    ["CHARACTER TABULATION SET", "HORIZONTAL TABULATION SET", "HTS"],
    ["CHARACTER TABULATION WITH JUSTIFICATION", "HORIZONTAL TABULATION WITH JUSTIFICATION", "HTJ"],
    ["LINE TABULATION SET", "VERTICAL TABULATION SET", "VTS"],
    ["PARTIAL LINE FORWARD", "PARTIAL LINE DOWN", "PLD"], ["PARTIAL LINE BACKWARD", "PARTIAL LINE UP", "PLU"],
    ["REVERSE LINE FEED", "REVERSE INDEX", "RI"], ["SINGLE SHIFT TWO", "SINGLE-SHIFT-2", "SS2"],
    ["SINGLE SHIFT THREE", "SINGLE-SHIFT-3", "SS3"], ["DEVICE CONTROL STRING", "DCS"],
    ["PRIVATE USE ONE", "PRIVATE USE-1", "PU1"], ["PRIVATE USE TWO", "PRIVATE USE-2", "PU2"],
    ["SET TRANSMIT STATE", "STS"], ["CANCEL CHARACTER", "CCH"], ["MESSAGE WAITING", "MW"],
    ["START OF GUARDED AREA", "START OF PROTECTED AREA", "SPA"],
    ["END OF GUARDED AREA", "END OF PROTECTED AREA", "EPA"], ["START OF STRING", "SOS"],
    ["SINGLE GRAPHIC CHARACTER INTRODUCER", "SGC"], ["SINGLE CHARACTER INTRODUCER", "SCI"],
    ["CONTROL SEQUENCE INTRODUCER", "CSI"], ["STRING TERMINATOR", "ST"], ["OPERATING SYSTEM COMMAND", "OSC"],
    ["PRIVACY MESSAGE", "PM"], ["APPLICATION PROGRAM COMMAND", "APC"]]

/-- The character of the first two blocks with the given name. -/
def latinNamed? (name : String) : Option Char :=
  let name := name.toUpper
  ((asciiNames.idxOf? name).map fun i => Char.ofNat (0x20 + i)).or <|
    ((latinNames.idxOf? name).map fun i => Char.ofNat (0xA0 + i)).or <|
    ((lowControlNames.findIdx? (·.contains name)).map Char.ofNat).or <|
    ((highControlNames.findIdx? (·.contains name)).map fun i => Char.ofNat (0x7F + i)).or <|
    [("SP", ' '), ("NBSP", '\u00a0'), ("SHY", '\u00ad')].lookup name

/-- Where nothing else is said, the characters of the first two blocks have names, and no others. -/
instance latinCharacterNames : CharacterNames := ⟨latinNamed?⟩

example : latinNamed? "digit one" = some '1' ∧ latinNamed? "MICRO SIGN" = some 'µ' ∧
    latinNamed? "Line Feed" = some '\n' := by decide +kernel

/-- The names are as many as the characters of the two blocks. -/
theorem length_names :
    asciiNames.length = 0x7F - 0x20 ∧ latinNames.length = 0x100 - 0xA0 ∧
      lowControlNames.length = 0x20 ∧ highControlNames.length = 0xA0 - 0x7F := by
  decide

end DependencyQuery.Text
