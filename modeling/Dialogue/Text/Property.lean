import Dialogue.Text.GeneralCategory
/-!
# Binary properties of characters

The standard yes-or-no properties. Those that follow the general category up to a few
characters are built from it and a table of the rest; the others have tables of their own.
`Property.set?` finds a property by its long or short name.
-/

namespace Dialogue.Property

/-! ### White space -/

/-- The characters that count as blank at the ends of a text. -/
def whiteSpace : CharSet := CharSet.ofStretches
  ["9 5 12 1 64 1 1A 1 15DF 1 97F B 1D 2 5 1 2F 1 FA0 1"]

/-! ### Properties close to a general category -/

/-- Alphabetic characters that are neither letters nor letter numbers. -/
def otherAlphabetic : CharSet := CharSet.ofStretches
  ["345 1 26A E 1 1 1 2 1 2 1 1 48 B 30 D 1 7 10 1 65 7 4 4 2 2 4 1 23 1 1E 10 66 B 65 2 3 9 1",
   "3 1 4 A7 C 3 7 6 14 36 2 2 F 1 2 5 3 A 2 1D 3 3A 7 2 2 2 2 A 1 A 2 1D 3 3A 5 4 2 2 2 4 1 1E",
   "2 3 1 B 3 3A 8 1 3 1 2 15 2 16 3 4 3 3A 7 2 2 2 2 9 2 A 2 1E 1 3B 5 3 3 1 3 A 1 28 5 39 7 1",
   "3 1 3 8 2 B 2 1D 3 3A 7 1 3 1 3 8 2 B 2 F 1 C 4 3A 7 1 3 1 3 A 1 A 2 1D 3 4B 6 1 1 1 8 12 2",
   "3D 1 2 7 12 1 63 1 2 6 1 2 10 1 A3 13 9 B 1 24 6E C 1 1 2 4 17 4 4 3 1 3 2 7 3 4 D C 1 1 A",
   "4 674 2 1E 2 1E 2 1E 2 42 13 BC 2 22 1 76 C 4 9 DE 5 39 A 2 14 4A 2 B 3 31 5 30 F 3C 3 1E 9",
   "2 2 39 B 32 13 1B0 E 6C1 34 8F6 20 7874 8 22 2 162 1 8 1 17 5 58 2 32 10 1 1 39 1 26 5 1C C",
   "2D 4 30 C 25 1 43 E C 1 8 2 2D 3 32 1 1 3 2 2 5 1 2C 5 5 1 ED 8 4F33 1 857 5 686 3 1 2 5 4",
   "314 4 183 2 153 3 35 E 2D 2 B 3 2D 9 9 1 3D 3 24 C 12 2 39 3 30 D E 2 5C 9 2 1 6 1 2 1 9D A",
   "17 4 3A 7 2 2 2 2 A 1 A 2 D1 D 1 3 6A 12 ED 7 2 7 1D 2 52 F 1 1 6A B 67 E 101 D F7 6 1 2 2",
   "2 3 1 1 1 8E 7 2 6 4 1 1C A 2A 5 1 4 12 B 2E E 197 8 1 7 53 16 1 E 7A 6 3 1 1 2 1 3 1 1 3 1",
   "42 5 1 2 1 4 15C 4 9 2 1 1 30 7 3 3 500E 1 1 37 7 4 5D 2 4CAC 1 2361 7 1 11 2 7 1 2 1 5 64",
   "1 8B7 1 7E8 1A 6 1A 6 1A"]

/-- Lowercase characters that are no lowercase letters. -/
def otherLowercase : CharSet := CharSet.ofStretches
  ["AA 1 F 1 1F5 9 7 2 1E 5 60 1 34 1 D81 1 C2F 3F D 1 22 25 2B1 1 D 1 10 D D3 10 350 1A 792 2",
   "7A1E 2 D2 1 81 3 3 2 362 4 9 1 5C16 1 2 3 1 2A 1 9 D875 3E"]

/-- Uppercase characters that are no uppercase letters. -/
def otherUppercase : CharSet := CharSet.ofStretches
  ["2160 10 346 1A 1CC60 1A 6 1A 6 1A"]

/-- Characters that extend a grapheme and are neither nonspacing nor enclosing marks. -/
def otherGraphemeExtend : CharSet := CharSet.ofStretches
  ["9BE 1 18 1 166 1 18 1 66 1 18 1 EA 1 12 2 67 1 18 1 77 1 F 1 D55 1 4D6 1 1021 2 CF6E 2 139E",
   "1 18 1 158 1 C 1 F1 1 380 1 B834 1 8 5 C2EAD 60"]

/-- The alphabetic characters. -/
def alphabetic : CharSet :=
  (GeneralCategory.setOf ["Lu", "Ll", "Lt", "Lm", "Lo", "Nl"]).union otherAlphabetic

/-- The lowercase characters. -/
def lowercase : CharSet := (GeneralCategory.setOf ["Ll"]).union otherLowercase

/-- The uppercase characters. -/
def uppercase : CharSet := (GeneralCategory.setOf ["Lu"]).union otherUppercase

/-- The characters that have a case. -/
def cased : CharSet := CharSet.unions [lowercase, uppercase, GeneralCategory.setOf ["Lt"]]

/-- The characters that join the one before them. -/
def graphemeExtend : CharSet := (GeneralCategory.setOf ["Mn", "Me"]).union otherGraphemeExtend

/-- The decimal digits of all scripts. -/
def decimalDigit : CharSet := GeneralCategory.setOf ["Nd"]

/-- The characters of words: letters, marks, decimal digits, connecting punctuation and the two
joiners. -/
def word : CharSet := CharSet.unions
  [alphabetic, GeneralCategory.setOf ["Mn", "Mc", "Me", "Nd", "Pc"], CharSet.range 0x200C 0x200D]

/-- Characters that may start an identifier. -/
def idStart : CharSet :=
  ((GeneralCategory.setOf ["Lu", "Ll", "Lt", "Lm", "Lo", "Nl"]).union (CharSet.ofStretches
    ["1885 2 891 1 15 1 F6C 2"])).diff (CharSet.ofStretches
    ["2E2F 1"])

/-- Characters that may go on in an identifier. -/
def idContinue : CharSet := CharSet.unions
  [idStart, GeneralCategory.setOf ["Mn", "Mc", "Nd", "Pc"], CharSet.ofStretches
    ["B7 1 2CF 1 FE1 9 668 1"]]

/-! ### Properties with tables of their own -/

/-- The tables: the names of the property, in lower case without separators, and its stretches. -/
def tables : List (List String × List String) := [
  (["dash"],
    ["2D 1 55C 1 33 1 E41 1 405 1 809 6 3D 1 27 1 F 1 186 1 C04 1 2 1 1F 2 4 1 1C 1 1BE 1 13 1 6F",
     "1 CD90 2 25 1 A 1 A9 1 F9F 1"]),
  (["defaultignorablecodepoint", "di"],
    ["AD 1 2A1 1 2CC 1 B42 2 653 2 55 5 7FB 5 1A 5 31 10 10F4 1 CC9B 10 EF 1 A0 1 4F 9 BCA7 4",
     "14CF 8 C2E85 1000"]),
  (["emoji"],
    ["23 1 6 1 5 A 6F 1 4 1 1F8D 1 C 1 D8 1 16 1 5A 6 F 2 16F 2 C 1 A6 1 19 B 4 3 C7 1 E7 2 A 1 9",
     "1 3A 4 1 5 9 1 2 1 2 2 2 1 4 1 2 1 1 2 2 1 3 1 3 2 8 3 5 1 1 1 5 C B 2 2 1 1 2 1 1 12 1 2 2",
     "12 6 1 1 1 2 3 2 5 1 2 2 4 2 B 2 5 2 2 1 5 2 1 1 1 2 14 2 5 6 1 4 2 1 4 1 2 1 2 6 1 1 2 1 1",
     "1 1 1 6 1 3 1 6 1 A 2 F 1 2 1 4 1 1 1 4 3 1 1 B 2 30 3 9 1 E 1 E 1 174 2 1CF 3 13 2 33 1 4",
     "1 4DA 1 C 1 259 1 1 1 1BD6A 1 CA 1 A0 2 C 2 E 1 2 A 4B 1A 1 2 17 1 14 1 2 9 15 2 AE 22 2 70",
     "2 2 1 3 2 53 2 3 1 107 1 3F B 6 1 18 7 2 2 8 C 1 2 4 2 1 4 2 D 2 2 1 8 2 9 1 5 3 C 3 8 3 2",
     "1 1 1 4 1 6 1 3 1 6 56 30 46 5 8 2 3 4 A 3 1 1 2 3 1 2 A E3 C 4 1 11B 2F 1 A 1 B9 70 D 3 9",
     "7 2E 1 7 8 E 4 9 7 9"]),
  (["emojipresentation", "epres"],
    ["231A 2 CD 4 3 1 2 1 209 2 15 2 32 C 2B 1 13 1 D 1 8 2 11 2 5 2 8 1 5 1 15 1 7 2 1 1 4 1 2 1",
     "7 1 4 2 1C 1 23 1 1 1 4 3 1 1 3D 3 18 1 E 1 35B 2 33 1 4 1 1C4AE 1 CA 1 BE 1 2 A 4B 1A 1 1",
     "18 1 14 1 2 5 1 3 15 2 AE 21 C 9 1 46 1 16 C 2B 4 5 C 11 3 1 3 47 1 1 1 BB 2 3F D 4 1 18 12",
     "1 1A 2 D 1 56 55 30 46 6 1 3 3 2 3 4 4 B 2 7 9 E3 C 4 1 11B 2F 1 A 1 B9 70 D 3 9 7 2E 1 7 8",
     "E 4 9 7 9"]),
  (["emod", "emojimodifier"],
    ["1F3FB 5"]),
  (["ebase", "emojimodifierbase"],
    ["261D 1 DB 1 10 4 1CC77 1 3C 3 2 1 2 3 75 2 2 B 15 13 3 1 4 3 1 3 7 1 1 1 18 1 C9 2 4 1 15 1",
     "4 2 AE 3 3 5 53 1 10 3 9 1 B 1 23F 1 2 1 8 8 6 1 9 A 2 3 38 1 3D 2 1 2 1 1 11 3 1 D E5 3 2A",
     "9"]),
  (["ecomp", "emojicomponent"],
    ["23 1 6 1 5 A 1FD3 1 D5 1 DD2B 1 F3D6 1A 1FB 5 5B0 4 C066C 60"]),
  (["extendedpictographic", "extpict"],
    ["A9 1 4 1 1F8D 1 C 1 D8 1 16 1 5A 6 F 2 16F 2 C 1 5F 1 46 1 19 B 4 3 C7 1 E7 2 A 1 9 1 3A 4",
     "1 6 1 C 1 72 A 76 2 B 1 1 1 1 6 1 3 1 6 1 A 2 F 1 2 1 4 1 1 1 4 3 1 1 B 5 2D 3 9 1 E 1 E 1",
     "174 2 1CF 3 13 2 33 1 4 1 4DA 1 C 1 259 1 1 1 1BD66 100 D 3 1F 1 3C 6 C 2 E 1 2 A 12 39 1B",
     "F A 1 14 1 2 9 1 4 9 1B2 5 13E 8 10A 30 80 74 C 55 2B C 4 38 8 A 6 28 8 1E 52 C 2F 1 A 1",
     "1B9 100 3FE"]),
  (["hex", "hexdigit"],
    ["30 A 7 6 1A 6 FEA9 A 7 6 1A 6"]),
  (["ahex", "asciihexdigit"],
    ["30 A 7 6 1A 6"]),
  (["ideo", "ideographic"],
    ["3006 2 19 9 E 3 3C5 19C0 40 5200 5900 16E 2 6A 750A 1 1B 17F8 8 4D6 2A 9 2467 18C 4D04 A6E0",
     "20 103A 6 DE 2 1682 E 1D31 C1F 21E 5E2 134B 5 1060"]),
  (["math"],
    ["2B 1 10 3 1F 1 1D 1 1 1 2D 1 4 1 25 1 1F 1 2D8 3 2 1 1A 2 2 3 20F 3 1A0D 1 1B 3 B 1 3 1 D 1",
     "E 4 15 5 B 5 41 D 4 1 3 2 4 5 12 1 4 1 2 A 1 1 2 6 6 1 3 2 2 2 1 3 1 6 3 E 1 1 44 18 1 6 1",
     "2 4 2 4 20 1 1 6 2 E 10C 8 4 14 2 5A 1 1E 1B 1 1 18 1 B 7 1BD 2 C A 4 6 4 2 2 2 3 5 E 1 1 1",
     "2 6 B 8 5 2 39 1 1 1 1D 4 9 3 150 40 100 200 30 15 2 6 CFDC 1 337 6 1 1 A2 1 10 3 1D 1 1 1",
     "1D 1 1 1 83 1 6 4 D413 55 1 47 1 2 2 1 2 2 2 4 1 C 1 1 1 7 1 41 1 4 2 8 1 7 1 1C 1 4 1 5 1",
     "1 3 7 1 154 2 124 2 32 1600 4 1 1B 1 2 1 1 2 1 1 A 1 4 1 1 1 1 6 1 4 1 1 1 1 1 1 3 1 2 1 1",
     "2 1 1 1 1 1 1 1 1 1 1 2 1 1 2 4 1 7 1 4 1 4 1 1 1 A 1 11 5 3 1 5 1 11 34 2"]),
  (["nchar", "noncharactercodepoint"],
    ["FDD0 20 20E 2 FFFE 2 FFFE 2 FFFE 2 FFFE 2 FFFE 2 FFFE 2 FFFE 2 FFFE 2 FFFE 2 FFFE 2 FFFE 2",
     "FFFE 2 FFFE 2 FFFE 2 FFFE 2 FFFE 2"]),
  (["patsyn", "patternsyntax"],
    ["21 F A 7 1A 4 1 1 1A 4 22 7 1 1 1 2 1 1 1 2 4 1 4 1 3 1 17 1 1F 1 1F18 18 8 F 2 13 1 A 131",
     "2D0 A0 276 1E 46C 200 80 181 3 4 19 F 1 CD0D 2 105 2"]),
  (["patternwhitespace", "patws"],
    ["9 5 12 1 64 1 1F88 2 18 2"]),
  (["qmark", "quotationmark"],
    ["22 1 4 1 83 1 F 1 1F5C 8 19 2 E07 1 1C9 4 D 3 CE21 4 BD 1 4 1 5A 2"]),
  (["regionalindicator", "ri"],
    ["1F1E6 1A"]),
  (["joinc", "joincontrol"],
    ["200C 2"]),
  (["variationselector", "vs"],
    ["180B 3 1 1 E5F0 10 D02F0 F0"]),
  (["uideo", "unifiedideograph"],
    ["3400 19C0 40 5200 5A0E 2 1 1 1 2 A 1 1 1 1 2 2 3 105D6 A6E0 20 103A 6 DE 2 1682 E 1D31 141F",
     "134B 5 1060"]),
  (["sentenceterminal", "sterm"],
    ["21 1 C 1 10 1 549 1 93 3 B4 1 2B 3 F6 1 3D 1 1 1 3 2 125 2 6E4 2 316 1 4 2 305 1 C6 2 CC 1",
     "5 1 13A 2 162 4 AE 2 2 2 1D 2 BC 2 41 2 3BC 2 9 3 DE4 1 D 1 16 2 1AD 1 74FC 1 10E 2 E3 1 3",
     "1 17E 2 56 2 5F 1 98 2 93 3 90 2 F9 1 5266 1 3 2 A9 1 C 1 10 1 41 1 AF4 2 4FD 5 2C 4 BD 2",
     "75 4 7F 3 81 2 6 1 10 2 58 2 1 2 6C 1 1A1 2 175 2 5 F 69 2 F9 3 205 1 1 1 FB 2 57 2 1A4 2",
     "2B4 2 4A 2 4B29 2 85 1 41 2 B 1 353 1 4E06 1 1DE8 1"]),
  (["term", "terminalpunctuation"],
    ["21 1 A 1 1 1 B 2 3 1 33E 1 8 1 201 1 39 1 48 1 E 1 1 3 B4 1 2B B 1 1 EB 2 36 F 1F 1 105 2",
     "4F4 2 AC 1 4 6 137 2 315 8 305 1 7C 3 47 2 9D 3 3 1 27 4 2 2 13A 2 162 4 AE 2 1 3 1D 2 BC 5",
     "3E 2 3BC 2 9 3 DE4 1 D 1 4 1 A 1 1 2 3 2 1AC 2 74FB 2 10D 3 E3 5 17E 2 56 2 5F 1 97 3 93 3",
     "7F 1 10 2 F9 1 5264 3 1 4 A9 1 A 1 1 1 B 2 3 1 41 1 2 1 43A 1 30 1 486 1 C7 1 136 2 98 6 44",
     "6 59 4 3B8 5 2C 4 BD 7 70 4 7F 3 81 2 6 1 10 2 58 5 6C 1 1A1 3 C 2 166 4 3 F 69 2 F9 3 205",
     "1 1 1 FB 2 57 2 4 2 19E 3 2D 1 285 2 4A 2 52B 5 45F9 2 85 1 41 3 A 1 352 2 4E06 1 1DE7 4"]),
  (["sd", "softdotted"],
    ["69 2 C4 1 119 1 1E 1 34 1 14 1 140 1 62 1 1 1 1909 1 33 1 D 1 3 1 84 1 9D 1 1A5 1 D6 2 B32",
     "1 1A7A5 2 32 2 32 2 32 2 32 2 32 2 32 2 32 2 32 2 32 2 32 2 32 2 32 2 886 1 131 2 1A 1"]),
  (["radical"],
    ["2E80 1A 1 59 C D6"]),
  (["dia", "diacritic"],
    ["5E 1 1 1 47 1 6 1 4 1 2 2 1F7 9F 1 8 5 6 11 2 4 1 9 2 FD 5 D1 1 37 11 1 1B 1 1 1 2 1 1 86 8",
     "4 2 86 2 4 2 3 3 43 1B 5B B 3A B 22 2 7E 8 29 A 10 1C 3D 1 10 1 3 4 1C 1 4A 1 10 1 6E 1 10",
     "1 6E 1 10 1 2F 3 3C 1 10 1 7 1 77 1 6E 1 10 1 6E 1 10 1 6D 2 10 1 7C 1 7C 6 1 1 6B 1 D 5 4B",
     "2 1B 1 1 1 1 1 4 2 42 3 1 2 3E 1 70 1 1 2 28 2 4 5 19 7 1 1 A 2 2C1 3 3B4 2 B3 B 9 1 15B 3",
     "139 8 2 1 30 F 2 B 68 1 F 1 26 9 36 2 8A 2 40 6 52 19 4 1 6 1 2 3 32 3F 59 C 25 B 1BD 1 1 3",
     "B 3 D 3 D 3 D 2 CF0 3 13D 1 1FA 6 69 4 5F 1 7572 1 C 2 1 1 1C 2 52 2 E 22 66 3 6D 2 CA 1 1B",
     "12 39 4 24 1 5F 1 C 1 24 1 95 3 41 4 33 1 64 5 9 3 80 2 4F30 1 301 10 10E 1 1 1 2F 1 2D 2",
     "43 1 2FC 1 49F 6 1 2A 1 9 32A 2 23B 6 1D5 3 46 B 31 4 C0 1 29 1 48 2 78 2 3E 1 4C 1 9 3 68",
     "2 B2 2 51 1 10 1 18 7 3 5 CD 1 3 1 7B 2 FB 2 7E 1 76 2 73 1 10D 2 102 2 4 1 9C 1 53 1 12 1",
     "51 1 1A5 1 102 1 1 2 51 1 16AF F 369A 5 3B 7 458 11 50 2 3FFE 4 1 7 1 2 1F01 2E 2 17 220 3",
     "3 6 8 8 2 7 1E 4 E82 3E C2 7 177 1 3D 4 5E0 7 6D 3 1 3"]),
  (["ext", "extender"],
    ["B7 1 218 2 36E 1 1B9 1 35A 1 2F0 1 7F 1 943 1 38 1 263 1 18E 1 44 1 1389 1 2B 5 67 2 5D 3",
     "6F16 1 5F6 1 3C2 1 16 1 89 1 6C 1 15 2 547B 1 810 2 BDA 1 268 3 4CF 1 50A9 2 49C 2 1 1 7158",
     "2 806 3"])]

/-- The properties built from general categories, by name. -/
def derived : List (List String × CharSet) := [
  (["alpha", "alphabetic"], alphabetic),
  (["lower", "lowercase"], lowercase),
  (["upper", "uppercase"], uppercase),
  (["whitespace", "wspace", "space"], whiteSpace),
  (["cased"], cased),
  (["grext", "graphemeextend"], graphemeExtend),
  (["ids", "idstart"], idStart),
  (["idc", "idcontinue"], idContinue),
  (["xids", "xidstart"], idStart.diff (CharSet.ofStretches
    ["37A 1 AB8 1 7F 1 21E7 2 CBC1 6 196 2 74 1 1 1 1 1 1 1 1 1 1 1 1 1 1 1 11F 2"])),
  (["xidc", "xidcontinue"], idContinue.diff (CharSet.ofStretches
    ["37A 1 2D20 2 CBC1 6 196 2 74 1 1 1 1 1 1 1 1 1 1 1 1 1 1 1"]))]

/-- The characters with a property. The name is in lower case without separators. -/
def set? (name : String) : Option CharSet :=
  match derived.find? fun e => e.1.contains name with
  | some e => some e.2
  | none => (tables.find? fun e => e.1.contains name).map fun e => CharSet.ofStretches e.2

end Dialogue.Property
