import Conformance.Text.Letter
import Conformance.Text.WritingSystem

/-!
# Properties of characters that a pattern can name

A property is named in a pattern by its Unicode name or one of its short names. Case, blanks, hyphens
and underscores in a name do not count, and a leading `is` is dropped.
-/
namespace Conformance.Regex

open Text

/-- The characters that can be shown as emoji. -/
def emoji : Ranges := .ofString <| String.join
    ["23 2A 30-39 A9 AE 203C 2049 2122 2139 2194-2199 21A9-21AA 231A-231B 2328 23CF 23E9-23F3 ",
     "23F8-23FA 24C2 25AA-25AB 25B6 25C0 25FB-25FE 2600-2604 260E 2611 2614-2615 2618 261D 2620 ",
     "2622-2623 2626 262A 262E-262F 2638-263A 2640 2642 2648-2653 265F-2660 2663 2665-2666 2668 ",
     "267B 267E-267F 2692-2697 2699 269B-269C 26A0-26A1 26A7 26AA-26AB 26B0-26B1 26BD-26BE ",
     "26C4-26C5 26C8 26CE-26CF 26D1 26D3-26D4 26E9-26EA 26F0-26F5 26F7-26FA 26FD 2702 2705 ",
     "2708-270D 270F 2712 2714 2716 271D 2721 2728 2733-2734 2744 2747 274C 274E 2753-2755 2757 ",
     "2763-2764 2795-2797 27A1 27B0 27BF 2934-2935 2B05-2B07 2B1B-2B1C 2B50 2B55 3030 303D 3297 ",
     "3299 1F004 1F0CF 1F170-1F171 1F17E-1F17F 1F18E 1F191-1F19A 1F1E6-1F1FF 1F201-1F202 1F21A ",
     "1F22F 1F232-1F23A 1F250-1F251 1F300-1F321 1F324-1F393 1F396-1F397 1F399-1F39B 1F39E-1F3F0 ",
     "1F3F3-1F3F5 1F3F7-1F4FD 1F4FF-1F53D 1F549-1F54E 1F550-1F567 1F56F-1F570 1F573-1F57A 1F587 ",
     "1F58A-1F58D 1F590 1F595-1F596 1F5A4-1F5A5 1F5A8 1F5B1-1F5B2 1F5BC 1F5C2-1F5C4 1F5D1-1F5D3 ",
     "1F5DC-1F5DE 1F5E1 1F5E3 1F5E8 1F5EF 1F5F3 1F5FA-1F64F 1F680-1F6C5 1F6CB-1F6D2 1F6D5-1F6D8 ",
     "1F6DC-1F6E5 1F6E9 1F6EB-1F6EC 1F6F0 1F6F3-1F6FC 1F7E0-1F7EB 1F7F0 1F90C-1F93A 1F93C-1F945 ",
     "1F947-1F9FF 1FA70-1FA7C 1FA80-1FA8A 1FA8E-1FAC6 1FAC8 1FACD-1FADC 1FADF-1FAEA 1FAEF-1FAF8"]

/-- The characters that are shown as emoji by default. -/
def emojiPresentation : Ranges := .ofString <| String.join
    ["231A-231B 23E9-23EC 23F0 23F3 25FD-25FE 2614-2615 2648-2653 267F 2693 26A1 26AA-26AB ",
     "26BD-26BE 26C4-26C5 26CE 26D4 26EA 26F2-26F3 26F5 26FA 26FD 2705 270A-270B 2728 274C 274E ",
     "2753-2755 2757 2795-2797 27B0 27BF 2B1B-2B1C 2B50 2B55 1F004 1F0CF 1F18E 1F191-1F19A ",
     "1F1E6-1F1FF 1F201 1F21A 1F22F 1F232-1F236 1F238-1F23A 1F250-1F251 1F300-1F320 1F32D-1F335 ",
     "1F337-1F37C 1F37E-1F393 1F3A0-1F3CA 1F3CF-1F3D3 1F3E0-1F3F0 1F3F4 1F3F8-1F43E 1F440 ",
     "1F442-1F4FC 1F4FF-1F53D 1F54B-1F54E 1F550-1F567 1F57A 1F595-1F596 1F5A4 1F5FB-1F64F ",
     "1F680-1F6C5 1F6CC 1F6D0-1F6D2 1F6D5-1F6D8 1F6DC-1F6DF 1F6EB-1F6EC 1F6F4-1F6FC 1F7E0-1F7EB ",
     "1F7F0 1F90C-1F93A 1F93C-1F945 1F947-1F9FF 1FA70-1FA7C 1FA80-1FA8A 1FA8E-1FAC6 1FAC8 ",
     "1FACD-1FADC 1FADF-1FAEA 1FAEF-1FAF8"]

/-- The pictographic symbols. -/
def extendedPictographic : Ranges := .ofString <| String.join
    ["A9 AE 203C 2049 2122 2139 2194-2199 21A9-21AA 231A-231B 2328 23CF 23E9-23F3 23F8-23FA 24C2 ",
     "25AA-25AB 25B6 25C0 25FB-25FE 2600-2604 260E 2611 2614-2615 2618 261D 2620 2622-2623 2626 ",
     "262A 262E-262F 2638-263A 2640 2642 2648-2653 265F-2660 2663 2665-2666 2668 267B 267E-267F ",
     "2692-2697 2699 269B-269C 26A0-26A1 26A7 26AA-26AB 26B0-26B1 26BD-26BE 26C4-26C5 26C8 ",
     "26CE-26CF 26D1 26D3-26D4 26E9-26EA 26F0-26F5 26F7-26FA 26FD 2702 2705 2708-270D 270F 2712 ",
     "2714 2716 271D 2721 2728 2733-2734 2744 2747 274C 274E 2753-2755 2757 2763-2764 2795-2797 ",
     "27A1 27B0 27BF 2934-2935 2B05-2B07 2B1B-2B1C 2B50 2B55 3030 303D 3297 3299 1F004 ",
     "1F02C-1F02F 1F094-1F09F 1F0AF-1F0B0 1F0C0 1F0CF-1F0D0 1F0F6-1F0FF 1F170-1F171 1F17E-1F17F ",
     "1F18E 1F191-1F19A 1F1AE-1F1E5 1F201-1F20F 1F21A 1F22F 1F232-1F23A 1F23C-1F23F 1F249-1F25F ",
     "1F266-1F321 1F324-1F393 1F396-1F397 1F399-1F39B 1F39E-1F3F0 1F3F3-1F3F5 1F3F7-1F3FA ",
     "1F400-1F4FD 1F4FF-1F53D 1F549-1F54E 1F550-1F567 1F56F-1F570 1F573-1F57A 1F587 1F58A-1F58D ",
     "1F590 1F595-1F596 1F5A4-1F5A5 1F5A8 1F5B1-1F5B2 1F5BC 1F5C2-1F5C4 1F5D1-1F5D3 1F5DC-1F5DE ",
     "1F5E1 1F5E3 1F5E8 1F5EF 1F5F3 1F5FA-1F64F 1F680-1F6C5 1F6CB-1F6D2 1F6D5-1F6E5 1F6E9 ",
     "1F6EB-1F6F0 1F6F3-1F6FF 1F7DA-1F7FF 1F80C-1F80F 1F848-1F84F 1F85A-1F85F 1F888-1F88F ",
     "1F8AE-1F8AF 1F8BC-1F8BF 1F8C2-1F8CF 1F8D9-1F8FF 1F90C-1F93A 1F93C-1F945 1F947-1F9FF ",
     "1FA58-1FA5F 1FA6E-1FAFF 1FC00-1FFFD"]

/-- The ideographs. -/
def ideographic : Ranges := .ofString <| String.join
    ["3006-3007 3021-3029 3038-303A 3400-4DBF 4E00-9FFF F900-FA6D FA70-FAD9 16FE4 16FF2-16FF6 ",
     "17000-18CD5 18CFF-18D1E 18D80-18DF2 1B170-1B2FB 20000-2A6DF 2A700-2B81D 2B820-2CEAD ",
     "2CEB0-2EBE0 2EBF0-2EE5D 2F800-2FA1D 30000-3134A 31350-33479"]

/-- The quotation marks. -/
def quotationMark : Ranges := .ofString <| "22 27 AB BB 2018-201F 2039-203A 2E42 300C-300F 301D-301F FE41-FE44 FF02 FF07 FF62-FF63"

/-- The punctuation marks that end a unit of text. -/
def terminalPunctuation : Ranges := .ofString <| String.join
    ["21 2C 2E 3A-3B 3F 37E 387 589 5C3 60C 61B 61D-61F 6D4 700-70A 70C 7F8-7F9 830-835 837-83E ",
     "85E 964-965 E5A-E5B F08 F0D-F12 104A-104B 1361-1368 166E 16EB-16ED 1735-1736 17D4-17D6 ",
     "17DA 1802-1805 1808-1809 1944-1945 1AA8-1AAB 1B4E-1B4F 1B5A-1B5B 1B5D-1B5F 1B7D-1B7F ",
     "1C3B-1C3F 1C7E-1C7F 2024 203C-203D 2047-2049 2CF9-2CFB 2E2E 2E3C 2E41 2E4C 2E4E-2E4F ",
     "2E53-2E54 3001-3002 A4FE-A4FF A60D-A60F A6F3-A6F7 A876-A877 A8CE-A8CF A92F A9C7-A9C9 ",
     "AA5D-AA5F AADF AAF0-AAF1 ABEB FE12 FE15-FE16 FE50-FE52 FE54-FE57 FF01 FF0C FF0E FF1A-FF1B ",
     "FF1F FF61 FF64 1039F 103D0 10857 1091F 10A56-10A57 10AF0-10AF5 10B3A-10B3F 10B99-10B9C ",
     "10F55-10F59 10F86-10F89 11047-1104D 110BE-110C1 11141-11143 111C5-111C6 111CD 111DE-111DF ",
     "11238-1123C 112A9 113D4-113D5 1144B-1144D 1145A-1145B 115C2-115C5 115C9-115D7 11641-11642 ",
     "1173C-1173E 11944 11946 11A42-11A43 11A9B-11A9C 11AA1-11AA2 11C41-11C43 11C71 11EF7-11EF8 ",
     "11F43-11F44 12470-12474 16A6E-16A6F 16AF5 16B37-16B39 16B44 16D6E-16D6F 16E97-16E98 1BC9F ",
     "1DA87-1DA8A"]

/-- The code points that are not shown where they are not supported. -/
def defaultIgnorable : Ranges := .ofString <| String.join
    ["AD 34F 61C 115F-1160 17B4-17B5 180B-180F 200B-200F 202A-202E 2060-206F 3164 FE00-FE0F FEFF ",
     "FFA0 FFF0-FFF8 1BCA0-1BCA3 1D173-1D17A E0000-E0FFF"]

/-- The characters that select a variant of the character before them. -/
def variationSelector : Ranges := .ofString <| "180B-180D 180F FE00-FE0F E0100-E01EF"

/-- The marks that change the sound or value of a character. -/
def diacritic : Ranges := .ofString <| String.join
    ["5E 60 A8 AF B4 B7-B8 2B0-34E 350-357 35D-362 374-375 37A 384-385 483-487 559 591-5BD 5BF ",
     "5C1-5C2 5C4-5C5 5C7 64B-652 657-658 6DF-6E0 6E5-6E6 6EA-6EC 730-74A 7A6-7B0 7EB-7F5 ",
     "818-819 898-89F 8C9-8D2 8E3-8FE 93C 94D 951-954 971 9BC 9CD A3C A4D ABC ACD AFD-AFF B3C ",
     "B4D B55 BCD C3C C4D CBC CCD D3B-D3C D4D DCA E3A E47-E4C E4E EBA EC8-ECC F18-F19 F35 F37 ",
     "F39 F3E-F3F F82-F84 F86-F87 FC6 1037 1039-103A 1063-1064 1069-106D 1087-108D 108F ",
     "109A-109B 135D-135F 1714-1715 1734 17C9-17D3 17DD 1939-193B 1A60 1A75-1A7C 1A7F 1AB0-1ABE ",
     "1AC1-1ACB 1ACF-1ADD 1AE0-1AEB 1B34 1B44 1B6B-1B73 1BAA-1BAB 1BE6 1BF2-1BF3 1C36-1C37 ",
     "1C78-1C7D 1CD0-1CE8 1CED 1CF4 1CF7-1CF9 1D2C-1D6A 1D9B-1DBE 1DC4-1DCF 1DF5-1DFF 1FBD ",
     "1FBF-1FC1 1FCD-1FCF 1FDD-1FDF 1FED-1FEF 1FFD-1FFE 2CEF-2CF1 2E2F 302A-302F 3099-309C 30FC ",
     "A66F A67C-A67D A67F A69C-A69D A6F0-A6F1 A700-A721 A788-A78A A7F1 A7F8-A7F9 A806 A82C A8C4 ",
     "A8E0-A8F1 A92B-A92E A953 A9B3 A9C0 A9E5 AA7B-AA7D AABF-AAC2 AAF6 AB5B-AB5F AB69-AB6B ",
     "ABEC-ABED FB1E FE20-FE2F FF3E FF40 FF70 FF9E-FF9F FFE3 102E0 10780-10785 10787-107B0 ",
     "107B2-107BA 10A38-10A3A 10A3F 10AE5-10AE6 10D22-10D27 10D4E 10D69-10D6D 10EFA 10EFD-10EFF ",
     "10F46-10F50 10F82-10F85 11046 11070 110B9-110BA 11133-11134 11173 111C0 111CA-111CC ",
     "11235-11236 112E9-112EA 1133B-1133C 1134D 11366-1136C 11370-11374 113CE-113D0 113D2-113D3 ",
     "113E1-113E2 11442 11446 114C2-114C3 115BF-115C0 1163F 116B6-116B7 1172B 11839-1183A ",
     "1193D-1193E 11943 119E0 11A34 11A47 11A99 11C3F 11D42 11D44-11D45 11D97 11DD9 11F41-11F42 ",
     "11F5A 13447-13455 1612F 16AF0-16AF4 16B30-16B36 16D6B-16D6C 16F8F-16F9F 16FF0-16FF1 ",
     "1AFF0-1AFF3 1AFF5-1AFFB 1AFFD-1AFFE 1CF00-1CF2D 1CF30-1CF46 1D167-1D169 1D16D-1D172 ",
     "1D17B-1D182 1D185-1D18B 1D1AA-1D1AD 1E030-1E06D 1E130-1E136 1E2AE 1E2EC-1E2EF 1E5EE-1E5EF ",
     "1E8D0-1E8D6 1E944-1E946 1E948-1E94A"]

/-- The characters reserved for the grammar of patterns. -/
def patternSyntax : Ranges := .ofString <| String.join
    ["21-2F 3A-40 5B-5E 60 7B-7E A1-A7 A9 AB-AC AE B0-B1 B6 BB BF D7 F7 2010-2027 2030-203E ",
     "2041-2053 2055-205E 2190-245F 2500-2775 2794-2BFF 2E00-2E7F 3001-3003 3008-3020 3030 ",
     "FD3E-FD3F FE45-FE46"]

/-- The blanks of pattern languages. -/
def patternWhiteSpace : Ranges := .ofString <| "9-D 20 85 200E-200F 2028-2029"

/-- The mathematical characters outside the category of mathematical symbols. -/
def otherMath : Ranges := .ofString <| String.join
    ["5E 3D0-3D2 3D5 3F0-3F1 3F4-3F5 2016 2032-2034 2040 2061-2064 207D-207E 208D-208E 20D0-20DC ",
     "20E1 20E5-20E6 20EB-20EF 2102 2107 210A-2113 2115 2119-211D 2124 2128-2129 212C-212D ",
     "212F-2131 2133-2138 213C-213F 2145-2149 2195-2199 219C-219F 21A1-21A2 21A4-21A5 21A7 ",
     "21A9-21AD 21B0-21B1 21B6-21B7 21BC-21CD 21D0-21D1 21D3 21D5-21DB 21DD 21E4-21E5 2308-230B ",
     "23B4-23B5 23B7 23D0 23E2 25A0-25A1 25AE-25B6 25BC-25C0 25C6-25C7 25CA-25CB 25CF-25D3 25E2 ",
     "25E4 25E7-25EC 2605-2606 2640 2642 2660-2663 266D-266E 27C5-27C6 27E6-27EF 2983-2998 ",
     "29D8-29DB 29FC-29FD FE61 FE63 FE68 FF3C FF3E 1D400-1D454 1D456-1D49C 1D49E-1D49F 1D4A2 ",
     "1D4A5-1D4A6 1D4A9-1D4AC 1D4AE-1D4B9 1D4BB 1D4BD-1D4C3 1D4C5-1D505 1D507-1D50A 1D50D-1D514 ",
     "1D516-1D51C 1D51E-1D539 1D53B-1D53E 1D540-1D544 1D546 1D54A-1D550 1D552-1D6A5 1D6A8-1D6C0 ",
     "1D6C2-1D6DA 1D6DC-1D6FA 1D6FC-1D714 1D716-1D734 1D736-1D74E 1D750-1D76E 1D770-1D788 ",
     "1D78A-1D7A8 1D7AA-1D7C2 1D7C4-1D7CB 1D7CE-1D7FF 1EE00-1EE03 1EE05-1EE1F 1EE21-1EE22 1EE24 ",
     "1EE27 1EE29-1EE32 1EE34-1EE37 1EE39 1EE3B 1EE42 1EE47 1EE49 1EE4B 1EE4D-1EE4F 1EE51-1EE52 ",
     "1EE54 1EE57 1EE59 1EE5B 1EE5D 1EE5F 1EE61-1EE62 1EE64 1EE67-1EE6A 1EE6C-1EE72 1EE74-1EE77 ",
     "1EE79-1EE7C 1EE7E 1EE80-1EE89 1EE8B-1EE9B 1EEA1-1EEA3 1EEA5-1EEA9 1EEAB-1EEBB"]

/-- The dashes outside the category of dash punctuation. -/
def otherDash : Ranges := .ofString <| "2053 207B 208B 2212"

/-- The characters with case outside the categories of cased letters. -/
def otherCased : Ranges := .ofString <| String.join
    ["AA BA 2B0-2B8 2C0-2C1 2E0-2E4 345 37A 10FC 1D2C-1D6A 1D78 1D9B-1DBF 2071 207F 2090-209C ",
     "2160-217F 24B6-24E9 2C7C-2C7D A69C-A69D A770 A7F1-A7F4 A7F8-A7F9 AB5C-AB5F AB69 10780 ",
     "10783-10785 10787-107B0 107B2-107BA 1E030-1E06D 1F130-1F149 1F150-1F169 1F170-1F189"]

/-- A property of code points. -/
inductive Property where
  /-- One of these general categories. -/
  | category (categories : List Category)
  /-- One of these categories, or in these ranges, and not in the last ranges. -/
  | listed (categories : List Category) (also except : Ranges)
  /-- The property `White_Space`. -/
  | white
  /-- A decimal digit. -/
  | digit
  /-- A character of words: letters, marks, decimal digits, connectors and joiners. -/
  | word
  deriving Inhabited

namespace Property

/-- The categories of letters with case. -/
def casedLetters : List Category := [.uppercaseLetter, .lowercaseLetter, .titlecaseLetter]

/-- The categories of letters. -/
def letters : List Category := casedLetters ++ [.modifierLetter, .otherLetter]

/-- The categories of marks. -/
def marks : List Category := [.nonspacingMark, .spacingMark, .enclosingMark]

/-- Whether the code point is a character of words. -/
def isWord (n : Nat) : Bool :=
  if n < 0x80 then (Char.ofNat n).isAlphanum || n = 0x5F
  else
    let category := Category.of n
    category.isLetter || category = .letterNumber || otherAlphabetic.contains n ||
      marks.contains category || category = .decimalNumber ||
      category = .connectorPunctuation || n = 0x200C || n = 0x200D

/-- Whether the code point is a decimal digit. -/
def isDigit (n : Nat) : Bool :=
  if n < 0x80 then (Char.ofNat n).isDigit else Category.of n = .decimalNumber

/-- Whether the code point has the property. -/
def holds : Property → Nat → Bool
  | category categories, n => categories.contains (Category.of n)
  | listed categories also except, n =>
    (categories.contains (Category.of n) || also.contains n) && !except.contains n
  | white, n => isWhite (Char.ofNat n)
  | digit, n => isDigit n
  | word, n => isWord n

/-- A rough count of the ranges that make up the property. -/
def rangeCount : Property → Nat
  | category categories => (categories.map ofCategory).foldl Nat.add 0
  | listed categories also except =>
    (categories.map ofCategory).foldl Nat.add 0 + also.spans.size + except.spans.size
  | white => 10
  | digit => 71
  | word => 780
where
  ofCategory (c : Category) : Nat := (Category.table.filter (·.2 = c)).size

/-- The ranges without an element. -/
def nothing : Ranges := ⟨#[]⟩

/-- The name with case, blanks, hyphens and underscores removed, and without a leading `is`. -/
def normalizedName (name : String) : String :=
  let plain := name.toList.map Char.toLower
  let (isCut, rest) := match plain with
    | 'i' :: 's' :: r => (true, r)
    | r => (false, r)
  let kept := rest.filter fun c => c ≠ ' ' && c ≠ '_' && c ≠ '-' && c.toNat < 0x80
  if isCut && kept = ['c'] then "isc" else String.ofList kept

/-- The properties by their normalized names. -/
def byName : List (List String × Property) :=
  [(["alphabetic", "alpha"], listed (letters ++ [.letterNumber]) otherAlphabetic nothing),
    (["lowercase", "lower"], listed [.lowercaseLetter] otherLowercase nothing),
    (["uppercase", "upper"], listed [.uppercaseLetter] otherUppercase nothing),
    (["cased"], listed casedLetters otherCased nothing),
    (["whitespace", "wspace", "space"], white),
    (["math"], listed [.mathSymbol] otherMath nothing),
    (["dash"], listed [.dashPunctuation] otherDash nothing),
    (["graphemeextend", "grext"],
      listed [.nonspacingMark, .enclosingMark] otherGraphemeExtend nothing),
    (["asciihexdigit", "ahex"], listed [] (.ofString "30-39 41-46 61-66") nothing),
    (["hexdigit", "hex"],
      listed [] (.ofString "30-39 41-46 61-66 FF10-FF19 FF21-FF26 FF41-FF46") nothing),
    (["joincontrol", "joinc"], listed [] (.ofString "200C-200D") nothing),
    (["idstart", "ids"],
      listed (letters ++ [.letterNumber]) (.ofString "1885-1886 2118 212E 309B-309C") (.ofString "2E2F")),
    (["idcontinue", "idc"],
      listed (letters ++ [.letterNumber, .nonspacingMark, .spacingMark, .decimalNumber,
        .connectorPunctuation])
        (.ofString "B7 387 1369-1371 19DA 200C-200D 2118 212E 309B-309C 30FB FF65")
        (.ofString "2E2F")),
    (["xidstart", "xids"],
      listed (letters ++ [.letterNumber]) (.ofString "1885-1886 2118 212E")
        (.ofString <| "37A E33 EB3 2E2F 309B-309C FC5E-FC63 FDFA-FDFB FE70 FE72 FE74 FE76 FE78 FE7A " ++
          "FE7C FE7E FF9E-FF9F")),
    (["xidcontinue", "xidc"],
      listed (letters ++ [.letterNumber, .nonspacingMark, .spacingMark, .decimalNumber,
        .connectorPunctuation])
        (.ofString "B7 387 1369-1371 19DA 200C-200D 2118 212E 30FB FF65")
        (.ofString <| "37A 2E2F 309B-309C FC5E-FC63 FDFA-FDFB FE70 FE72 FE74 FE76 FE78 FE7A FE7C " ++
          "FE7E")),
    (["emoji"], listed [] emoji nothing),
    (["emojipresentation", "epres"], listed [] emojiPresentation nothing),
    (["extendedpictographic", "extpict"], listed [] extendedPictographic nothing),
    (["ideographic", "ideo"], listed [] ideographic nothing),
    (["quotationmark", "qmark"], listed [] quotationMark nothing),
    (["terminalpunctuation", "term"], listed [] terminalPunctuation nothing),
    (["defaultignorablecodepoint", "di"], listed [] defaultIgnorable nothing),
    (["variationselector", "vs"], listed [] variationSelector nothing),
    (["diacritic", "dia"], listed [] diacritic nothing),
    (["patternsyntax", "patsyn"], listed [] patternSyntax nothing),
    (["patternwhitespace", "patws"], listed [] patternWhiteSpace nothing),
    (["regionalindicator", "ri"], listed [] (.ofString "1F1E6-1F1FF") nothing)]

/-- The general categories and their groups by normalized names. -/
def categoriesByName : List (List String × List Category) :=
  [(["any"], Category.all),
    (["assigned"], Category.all.filter (· ≠ .unassigned)),
    (["l", "letter"], letters),
    (["lc", "casedletter"], casedLetters),
    (["lu", "uppercaseletter"], [.uppercaseLetter]),
    (["ll", "lowercaseletter"], [.lowercaseLetter]),
    (["lt", "titlecaseletter"], [.titlecaseLetter]),
    (["lm", "modifierletter"], [.modifierLetter]),
    (["lo", "otherletter"], [.otherLetter]),
    (["m", "mark", "combiningmark"], marks),
    (["mn", "nonspacingmark"], [.nonspacingMark]),
    (["mc", "spacingmark"], [.spacingMark]),
    (["me", "enclosingmark"], [.enclosingMark]),
    (["n", "number"], [.decimalNumber, .letterNumber, .otherNumber]),
    (["nd", "decimalnumber", "digit"], [.decimalNumber]),
    (["nl", "letternumber"], [.letterNumber]),
    (["no", "othernumber"], [.otherNumber]),
    (["p", "punctuation", "punct"],
      [.connectorPunctuation, .dashPunctuation, .openPunctuation, .closePunctuation,
        .initialPunctuation, .finalPunctuation, .otherPunctuation]),
    (["pc", "connectorpunctuation"], [.connectorPunctuation]),
    (["pd", "dashpunctuation"], [.dashPunctuation]),
    (["ps", "openpunctuation"], [.openPunctuation]),
    (["pe", "closepunctuation"], [.closePunctuation]),
    (["pi", "initialpunctuation"], [.initialPunctuation]),
    (["pf", "finalpunctuation"], [.finalPunctuation]),
    (["po", "otherpunctuation"], [.otherPunctuation]),
    (["s", "symbol"], [.mathSymbol, .currencySymbol, .modifierSymbol, .otherSymbol]),
    (["sm", "mathsymbol"], [.mathSymbol]),
    (["sc", "currencysymbol"], [.currencySymbol]),
    (["sk", "modifiersymbol"], [.modifierSymbol]),
    (["so", "othersymbol"], [.otherSymbol]),
    (["z", "separator"], [.spaceSeparator, .lineSeparator, .paragraphSeparator]),
    (["zs", "spaceseparator"], [.spaceSeparator]),
    (["zl", "lineseparator"], [.lineSeparator]),
    (["zp", "paragraphseparator"], [.paragraphSeparator]),
    (["c", "other"], [.control, .format, .surrogate, .privateUse, .unassigned]),
    (["cc", "control", "cntrl"], [.control]),
    (["cf", "format"], [.format]),
    (["cs", "surrogate"], [.surrogate]),
    (["co", "privateuse"], [.privateUse]),
    (["cn", "unassigned"], [.unassigned])]

/-- The entry of a table of names. -/
def named? {α : Type} (name : String) (table : List (List String × α)) : Option α :=
  (table.find? (·.1.contains name)).map (·.2)

/-- The property of a general category or a group of them. -/
def ofCategoryName? (name : String) : Option Property :=
  if name = "ascii" then some (listed [] (.ofString "0-7F") nothing)
  else (named? name categoriesByName).map category

/-- The property of a writing system. -/
def ofWritingSystemName? (name : String) : Option Property :=
  (WritingSystem.all.find? fun w => (w.names.map normalizedName).contains name).map fun w =>
    listed [] w.characters nothing

/-- The property that a name alone stands for. -/
def ofName? (name : String) : Option Property :=
  let name := normalizedName name
  let plain := if name = "cf" || name = "sc" || name = "lc" then none else named? name byName
  (plain.or (ofCategoryName? name)).or (ofWritingSystemName? name)

/-- The property that a name and a value stand for. -/
def ofNameAndValue? (name value : String) : Option Property :=
  let name := normalizedName name
  let value := normalizedName value
  if name = "generalcategory" || name = "gc" then ofCategoryName? value
  else if name = "script" || name = "sc" || name = "scriptextensions" || name = "scx" then
    ofWritingSystemName? value
  else none

end Property

end Conformance.Regex
