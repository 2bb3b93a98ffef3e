import FormDerivation.Text.Unicode.CategoryTable

/-!
Unicode properties by name: general categories, scripts and the common binary properties.

Names are compared without regard to case, spaces, hyphens and underscores.
-/

namespace FormDerivation.Text.Unicode

def otherAlphabeticText : String :=
  "345-345 5B0-5BD 5BF-5BF 5C1-5C2 5C4-5C5 5C7-5C7 610-61A 64B-657 659-65F 670-670 6D6-6DC " ++
    "6E1-6E4 6E7-6E8 6ED-6ED 711-711 730-73F 7A6-7B0 816-817 81B-823 825-827 829-82C 8D4-8DF " ++
    "8E3-8E9 8F0-903 93A-93B 93E-94C 94E-94F 955-957 962-963 981-983 9BE-9C4 9C7-9C8 9CB-9CC " ++
    "9D7-9D7 9E2-9E3 A01-A03 A3E-A42 A47-A48 A4B-A4C A51-A51 A70-A71 A75-A75 A81-A83 ABE-AC5 " ++
    "AC7-AC9 ACB-ACC AE2-AE3 AFA-AFC B01-B03 B3E-B44 B47-B48 B4B-B4C B56-B57 B62-B63 B82-B82 " ++
    "BBE-BC2 BC6-BC8 BCA-BCC BD7-BD7 C00-C04 C3E-C44 C46-C48 C4A-C4C C55-C56 C62-C63 C81-C83 " ++
    "CBE-CC4 CC6-CC8 CCA-CCC CD5-CD6 CE2-CE3 CF3-CF3 D00-D03 D3E-D44 D46-D48 D4A-D4C D57-D57 " ++
    "D62-D63 D81-D83 DCF-DD4 DD6-DD6 DD8-DDF DF2-DF3 E31-E31 E34-E3A E4D-E4D EB1-EB1 EB4-EB9 " ++
    "EBB-EBC ECD-ECD F71-F83 F8D-F97 F99-FBC 102B-1036 1038-1038 103B-103E 1056-1059 105E-1060 " ++
    "1062-1064 1067-106D 1071-1074 1082-108D 108F-108F 109A-109D 1712-1713 1732-1733 1752-1753 " ++
    "1772-1773 17B6-17C8 1885-1886 18A9-18A9 1920-192B 1930-1938 1A17-1A1B 1A55-1A5E 1A61-1A74 " ++
    "1ABF-1AC0 1ACC-1ACE 1B00-1B04 1B35-1B43 1B80-1B82 1BA1-1BA9 1BAC-1BAD 1BE7-1BF1 1C24-1C36 " ++
    "1DE7-1DF4 24B6-24E9 2DE0-2DFF A674-A67B A69E-A69F A802-A802 A80B-A80B A823-A827 A880-A881 " ++
    "A8B4-A8C3 A8C5-A8C5 A8FF-A8FF A926-A92A A947-A952 A980-A983 A9B4-A9BF A9E5-A9E5 AA29-AA36 " ++
    "AA43-AA43 AA4C-AA4D AA7B-AA7D AAB0-AAB0 AAB2-AAB4 AAB7-AAB8 AABE-AABE AAEB-AAEF AAF5-AAF5 " ++
    "ABE3-ABEA FB1E-FB1E 10376-1037A 10A01-10A03 10A05-10A06 10A0C-10A0F 10D24-10D27 " ++
    "10EAB-10EAC 11000-11002 11038-11045 11073-11074 11080-11082 110B0-110B8 110C2-110C2 " ++
    "11100-11102 11127-11132 11145-11146 11180-11182 111B3-111BF 111CE-111CF 1122C-11234 " ++
    "11237-11237 1123E-1123E 11241-11241 112DF-112E8 11300-11303 1133E-11344 11347-11348 " ++
    "1134B-1134C 11357-11357 11362-11363 11435-11441 11443-11445 114B0-114C1 115AF-115B5 " ++
    "115B8-115BE 115DC-115DD 11630-1163E 11640-11640 116AB-116B5 1171D-1172A 1182C-11838 " ++
    "11930-11935 11937-11938 1193B-1193C 11940-11940 11942-11942 119D1-119D7 119DA-119DF " ++
    "119E4-119E4 11A01-11A0A 11A35-11A39 11A3B-11A3E 11A51-11A5B 11A8A-11A97 11C2F-11C36 " ++
    "11C38-11C3E 11C92-11CA7 11CA9-11CB6 11D31-11D36 11D3A-11D3A 11D3C-11D3D 11D3F-11D41 " ++
    "11D43-11D43 11D47-11D47 11D8A-11D8E 11D90-11D91 11D93-11D96 11EF3-11EF6 11F00-11F01 " ++
    "11F03-11F03 11F34-11F3A 11F3E-11F40 16F4F-16F4F 16F51-16F87 16F8F-16F92 16FF0-16FF1 " ++
    "1BC9E-1BC9E 1E000-1E006 1E008-1E018 1E01B-1E021 1E023-1E024 1E026-1E02A 1E08F-1E08F " ++
    "1E947-1E947 1F130-1F149 1F150-1F169 1F170-1F189"

def otherLowercaseText : String :=
  "AA-AA BA-BA 2B0-2B8 2C0-2C1 2E0-2E4 345-345 37A-37A 10FC-10FC 1D2C-1D6A 1D78-1D78 1D9B-1DBF " ++
    "2071-2071 207F-207F 2090-209C 2170-217F 24D0-24E9 2C7C-2C7D A69C-A69D A770-A770 A7F2-A7F4 " ++
    "A7F8-A7F9 AB5C-AB5F AB69-AB69 10780-10780 10783-10785 10787-107B0 107B2-107BA 1E030-1E06D"

def otherUppercaseText : String :=
  "2160-216F 24B6-24CF 1F130-1F149 1F150-1F169 1F170-1F189"

def scriptTexts : List (String × String) := [
  ("latin",
    "41-5A 61-7A AA-AA BA-BA C0-D6 D8-F6 F8-2B8 2E0-2E4 1D00-1D25 1D2C-1D5C 1D62-1D65 1D6B-1D77 " ++
    "1D79-1DBE 1E00-1EFF 2071-2071 207F-207F 2090-209C 212A-212B 2132-2132 214E-214E 2160-2188 " ++
    "2C60-2C7F A722-A787 A78B-A7CA A7D0-A7D1 A7D3-A7D3 A7D5-A7D9 A7F2-A7FF AB30-AB5A AB5C-AB64 " ++
    "AB66-AB69 FB00-FB06 FF21-FF3A FF41-FF5A 10780-10785 10787-107B0 107B2-107BA 1DF00-1DF1E " ++
    "1DF25-1DF2A"),
  ("greek",
    "370-373 375-377 37A-37D 37F-37F 384-384 386-386 388-38A 38C-38C 38E-3A1 3A3-3E1 3F0-3FF " ++
    "1D26-1D2A 1D5D-1D61 1D66-1D6A 1DBF-1DBF 1F00-1F15 1F18-1F1D 1F20-1F45 1F48-1F4D 1F50-1F57 " ++
    "1F59-1F59 1F5B-1F5B 1F5D-1F5D 1F5F-1F7D 1F80-1FB4 1FB6-1FC4 1FC6-1FD3 1FD6-1FDB 1FDD-1FEF " ++
    "1FF2-1FF4 1FF6-1FFE 2126-2126 AB65-AB65 10140-1018E 101A0-101A0 1D200-1D245"),
  ("cyrillic",
    "400-484 487-52F 1C80-1C88 1D2B-1D2B 1D78-1D78 2DE0-2DFF A640-A69F FE2E-FE2F 1E030-1E06D " ++
    "1E08F-1E08F"),
  ("han",
    "2E80-2E99 2E9B-2EF3 2F00-2FD5 3005-3005 3007-3007 3021-3029 3038-303B 3400-4DBF 4E00-9FFF " ++
    "F900-FA6D FA70-FAD9 16FE2-16FE3 16FF0-16FF1 20000-2A6DF 2A700-2B739 2B740-2B81D " ++
    "2B820-2CEA1 2CEB0-2EBE0 2F800-2FA1D 30000-3134A 31350-323AF"),
  ("hiragana",
    "3041-3096 309D-309F 1B001-1B11F 1B132-1B132 1B150-1B152 1F200-1F200"),
  ("katakana",
    "30A1-30FA 30FD-30FF 31F0-31FF 32D0-32FE 3300-3357 FF66-FF6F FF71-FF9D 1AFF0-1AFF3 " ++
    "1AFF5-1AFFB 1AFFD-1AFFE 1B000-1B000 1B120-1B122 1B155-1B155 1B164-1B167"),
  ("hangul",
    "1100-11FF 302E-302F 3131-318E 3200-321E 3260-327E A960-A97C AC00-D7A3 D7B0-D7C6 D7CB-D7FB " ++
    "FFA0-FFBE FFC2-FFC7 FFCA-FFCF FFD2-FFD7 FFDA-FFDC"),
  ("arabic",
    "600-604 606-60B 60D-61A 61C-61E 620-63F 641-64A 656-66F 671-6DC 6DE-6FF 750-77F 870-88E " ++
    "890-891 898-8E1 8E3-8FF FB50-FBC2 FBD3-FD3D FD40-FD8F FD92-FDC7 FDCF-FDCF FDF0-FDFF " ++
    "FE70-FE74 FE76-FEFC 10E60-10E7E 10EFD-10EFF 1EE00-1EE03 1EE05-1EE1F 1EE21-1EE22 " ++
    "1EE24-1EE24 1EE27-1EE27 1EE29-1EE32 1EE34-1EE37 1EE39-1EE39 1EE3B-1EE3B 1EE42-1EE42 " ++
    "1EE47-1EE47 1EE49-1EE49 1EE4B-1EE4B 1EE4D-1EE4F 1EE51-1EE52 1EE54-1EE54 1EE57-1EE57 " ++
    "1EE59-1EE59 1EE5B-1EE5B 1EE5D-1EE5D 1EE5F-1EE5F 1EE61-1EE62 1EE64-1EE64 1EE67-1EE6A " ++
    "1EE6C-1EE72 1EE74-1EE77 1EE79-1EE7C 1EE7E-1EE7E 1EE80-1EE89 1EE8B-1EE9B 1EEA1-1EEA3 " ++
    "1EEA5-1EEA9 1EEAB-1EEBB 1EEF0-1EEF1"),
  ("hebrew",
    "591-5C7 5D0-5EA 5EF-5F4 FB1D-FB36 FB38-FB3C FB3E-FB3E FB40-FB41 FB43-FB44 FB46-FB4F"),
  ("thai",
    "E01-E3A E40-E5B"),
  ("devanagari",
    "900-950 955-963 966-97F A8E0-A8FF 11B00-11B09"),
  ("armenian",
    "531-556 559-58A 58D-58F FB13-FB17"),
  ("georgian",
    "10A0-10C5 10C7-10C7 10CD-10CD 10D0-10FA 10FC-10FF 1C90-1CBA 1CBD-1CBF 2D00-2D25 2D27-2D27 " ++
    "2D2D-2D2D")]

def hexOf (cs : List Char) : Nat :=
  cs.foldl
    (fun n c => 16 * n + (if isDigit c then c.toNat - '0'.toNat else c.toNat - 'A'.toNat + 10)) 0

def rangesOf (table : String) : CharSet :=
  (words table.toList).filterMap fun range =>
    match splitAtChar '-' range with
    | [low, high] => some (hexOf low, hexOf high)
    | _ => none

def categoryNames : List (String × String) := [
  ("other", "C"), ("control", "Cc"), ("format", "Cf"), ("unassigned", "Cn"),
  ("privateuse", "Co"), ("surrogate", "Cs"), ("letter", "L"), ("casedletter", "LC"),
  ("lowercaseletter", "Ll"), ("modifierletter", "Lm"), ("otherletter", "Lo"),
  ("titlecaseletter", "Lt"), ("uppercaseletter", "Lu"), ("mark", "M"), ("combiningmark", "M"),
  ("spacingmark", "Mc"), ("enclosingmark", "Me"), ("nonspacingmark", "Mn"), ("number", "N"),
  ("decimalnumber", "Nd"), ("digit", "Nd"), ("letternumber", "Nl"), ("othernumber", "No"),
  ("punctuation", "P"), ("punct", "P"), ("connectorpunctuation", "Pc"),
  ("dashpunctuation", "Pd"), ("closepunctuation", "Pe"), ("finalpunctuation", "Pf"),
  ("initialpunctuation", "Pi"), ("otherpunctuation", "Po"), ("openpunctuation", "Ps"),
  ("symbol", "S"), ("currencysymbol", "Sc"), ("modifiersymbol", "Sk"), ("mathsymbol", "Sm"),
  ("othersymbol", "So"), ("separator", "Z"), ("lineseparator", "Zl"),
  ("paragraphseparator", "Zp"), ("spaceseparator", "Zs")]

def shortCategories : List (String × String) :=
  categoryNames.map fun (_, short) => (lowerAsciiText short, short)

def categorySet (short : String) : CharSet :=
  match short.toList with
  | [major] => categoryRanges fun a _ => a == major
  | ['L', 'C'] => categoryRanges fun a b => a == 'L' && (b == 'u' || b == 'l' || b == 't')
  | [major, minor] => categoryRanges fun a b => a == major && b == minor
  | _ => []

/-- A name without spaces, hyphens and underscores, in lower case, and without a leading `is`. -/
def looseName (name : String) : String :=
  let bare := (name.toList.filter fun c => c != ' ' && c != '-' && c != '_').map lowerAscii
  match bare with
  | 'i' :: 's' :: rest => if rest.isEmpty then "is" else String.ofList rest
  | bare => String.ofList bare

def category? (name : String) : Option CharSet :=
  if name == "any" then some [(0, 0x10FFFF)]
  else if name == "ascii" then some [(0, 127)]
  else if name == "assigned" then
    some (categoryRanges fun a b => !(a == 'C' && b == 'n'))
  else ((categoryNames ++ shortCategories).lookup name).map categorySet

def script? (name : String) : Option CharSet :=
  (scriptTexts.lookup name).map rangesOf

def binary? (name : String) : Option CharSet :=
  if name == "alphabetic" || name == "alpha" then
    some (CharSet.normalize (categoryRanges (fun a b => a == 'L' || (a == 'N' && b == 'l')) ++
      rangesOf otherAlphabeticText))
  else if name == "lowercase" || name == "lower" then
    some (CharSet.normalize (categorySet "Ll" ++ rangesOf otherLowercaseText))
  else if name == "uppercase" || name == "upper" then
    some (CharSet.normalize (categorySet "Lu" ++ rangesOf otherUppercaseText))
  else if name == "whitespace" || name == "space" || name == "wspace" then
    some blanks
  else none

/-- The characters with a property, named alone or as `key=value`. -/
def property? (key : Option String) (name : String) : Option CharSet :=
  let name := looseName name
  match key.map looseName with
  | none => (binary? name).or ((category? name).or (script? name))
  | some "gc" => category? name
  | some "generalcategory" => category? name
  | some "sc" => script? name
  | some "script" => script? name
  | some "scx" => script? name
  | some "scriptextensions" => script? name
  | some _ => none

end FormDerivation.Text.Unicode
