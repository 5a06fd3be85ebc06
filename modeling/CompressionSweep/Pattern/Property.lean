/-! The names of the character properties that a pattern may ask for, in the loose form that
ignores case, blanks, hyphens, underscores and a leading `is`. -/

namespace CompressionSweep.Pattern

/-- General categories, and the three sets that count as such. -/
def categoryNames : List String :=
  [
    "c", "other", "cc", "control", "cntrl", "cf", "format", "cn", "unassigned", "co",
    "privateuse", "l", "letter", "lc", "casedletter", "ll", "lowercaseletter", "lm",
    "modifierletter", "lo", "otherletter", "lt", "titlecaseletter", "lu", "uppercaseletter",
    "m", "mark", "combiningmark", "mc", "spacingmark", "me", "enclosingmark", "mn",
    "nonspacingmark", "n", "number", "nd", "decimalnumber", "digit", "nl", "letternumber", "no",
    "othernumber", "p", "punctuation", "punct", "pc", "connectorpunctuation", "pd",
    "dashpunctuation", "pe", "closepunctuation", "pf", "finalpunctuation", "pi",
    "initialpunctuation", "po", "otherpunctuation", "ps", "openpunctuation", "s", "symbol",
    "sc", "currencysymbol", "sk", "modifiersymbol", "sm", "mathsymbol", "so", "othersymbol",
    "z", "separator", "zl", "lineseparator", "zp", "paragraphseparator", "zs", "spaceseparator",
    "any", "assigned", "ascii"
  ]

def scriptNames : List String :=
  [
    "adlm", "adlam", "aghb", "caucasianalbanian", "ahom", "arab", "arabic", "armi",
    "imperialaramaic", "armn", "armenian", "avst", "avestan", "bali", "balinese", "bamu",
    "bamum", "bass", "bassavah", "batk", "batak", "beng", "bengali", "bhks", "bhaiksuki",
    "bopo", "bopomofo", "brah", "brahmi", "brai", "braille", "bugi", "buginese", "buhd",
    "buhid", "cakm", "chakma", "cans", "canadianaboriginal", "cari", "carian", "cham", "cher",
    "cherokee", "chrs", "chorasmian", "copt", "coptic", "qaac", "cpmn", "cyprominoan", "cprt",
    "cypriot", "cyrl", "cyrillic", "deva", "devanagari", "diak", "divesakuru", "dogr", "dogra",
    "dsrt", "deseret", "dupl", "duployan", "egyp", "egyptianhieroglyphs", "elba", "elbasan",
    "elym", "elymaic", "ethi", "ethiopic", "geor", "georgian", "glag", "glagolitic", "gong",
    "gunjalagondi", "gonm", "masaramgondi", "goth", "gothic", "gran", "grantha", "grek",
    "greek", "gujr", "gujarati", "guru", "gurmukhi", "hang", "hangul", "hani", "han", "hano",
    "hanunoo", "hatr", "hatran", "hebr", "hebrew", "hira", "hiragana", "hluw",
    "anatolianhieroglyphs", "hmng", "pahawhhmong", "hmnp", "nyiakengpuachuehmong", "hung",
    "oldhungarian", "ital", "olditalic", "java", "javanese", "kali", "kayahli", "kana",
    "katakana", "kawi", "khar", "kharoshthi", "khmr", "khmer", "khoj", "khojki", "kits",
    "khitansmallscript", "knda", "kannada", "kthi", "kaithi", "lana", "taitham", "laoo", "lao",
    "latn", "latin", "lepc", "lepcha", "limb", "limbu", "lina", "lineara", "linb", "linearb",
    "lisu", "lyci", "lycian", "lydi", "lydian", "mahj", "mahajani", "maka", "makasar", "mand",
    "mandaic", "mani", "manichaean", "marc", "marchen", "medf", "medefaidrin", "mend",
    "mendekikakui", "merc", "meroiticcursive", "mero", "meroitichieroglyphs", "mlym",
    "malayalam", "modi", "mong", "mongolian", "mroo", "mro", "mtei", "meeteimayek", "mult",
    "multani", "mymr", "myanmar", "nagm", "nagmundari", "nand", "nandinagari", "narb",
    "oldnortharabian", "nbat", "nabataean", "newa", "nkoo", "nko", "nshu", "nushu", "ogam",
    "ogham", "olck", "olchiki", "orkh", "oldturkic", "orya", "oriya", "osge", "osage", "osma",
    "osmanya", "ougr", "olduyghur", "palm", "palmyrene", "pauc", "paucinhau", "perm",
    "oldpermic", "phag", "phagspa", "phli", "inscriptionalpahlavi", "phlp", "psalterpahlavi",
    "phnx", "phoenician", "plrd", "miao", "prti", "inscriptionalparthian", "rjng", "rejang",
    "rohg", "hanifirohingya", "runr", "runic", "samr", "samaritan", "sarb", "oldsoutharabian",
    "saur", "saurashtra", "sgnw", "signwriting", "shaw", "shavian", "shrd", "sharada", "sidd",
    "siddham", "sind", "khudawadi", "sinh", "sinhala", "sogd", "sogdian", "sogo", "oldsogdian",
    "sora", "sorasompeng", "soyo", "soyombo", "sund", "sundanese", "sylo", "sylotinagri",
    "syrc", "syriac", "tagb", "tagbanwa", "takr", "takri", "tale", "taile", "talu", "newtailue",
    "taml", "tamil", "tang", "tangut", "tavt", "taiviet", "telu", "telugu", "tfng", "tifinagh",
    "tglg", "tagalog", "thaa", "thaana", "thai", "tibt", "tibetan", "tirh", "tirhuta", "tnsa",
    "tangsa", "toto", "ugar", "ugaritic", "vaii", "vai", "vith", "vithkuqi", "wara",
    "warangciti", "wcho", "wancho", "xpeo", "oldpersian", "xsux", "cuneiform", "yezi", "yezidi",
    "yiii", "yi", "zanb", "zanabazarsquare", "zinh", "inherited", "qaai", "zyyy", "common",
    "gara", "garay", "gukh", "gurungkhema", "krai", "kiratrai", "onao", "olonal", "sunu",
    "sunuwar", "todr", "todhri", "tutg", "tulutigalari"
  ]

/-- Properties that a character has or has not. -/
def binaryNames : List String :=
  [
    "ahex", "asciihexdigit", "alpha", "alphabetic", "bidic", "bidicontrol", "bidim",
    "bidimirrored", "ci", "caseignorable", "cased", "cwcf", "changeswhencasefolded", "cwcm",
    "changeswhencasemapped", "cwl", "changeswhenlowercased", "cwt", "changeswhentitlecased",
    "cwu", "changeswhenuppercased", "dash", "di", "defaultignorablecodepoint", "dep",
    "deprecated", "dia", "diacritic", "emoji", "ecomp", "emojicomponent", "emod",
    "emojimodifier", "ebase", "emojimodifierbase", "epres", "emojipresentation", "extpict",
    "extendedpictographic", "ext", "extender", "grbase", "graphemebase", "grext",
    "graphemeextend", "hex", "hexdigit", "hyphen", "idc", "idcontinue", "ids", "idstart",
    "idsb", "idsbinaryoperator", "idst", "idstrinaryoperator", "ideo", "ideographic", "joinc",
    "joincontrol", "loe", "logicalorderexception", "lower", "lowercase", "math", "nchar",
    "noncharactercodepoint", "patsyn", "patternsyntax", "patws", "patternwhitespace", "pcm",
    "prependedconcatenationmark", "qmark", "quotationmark", "radical", "ri",
    "regionalindicator", "sterm", "sentenceterminal", "sd", "softdotted", "term",
    "terminalpunctuation", "uideo", "unifiedideograph", "upper", "uppercase", "vs",
    "variationselector", "wspace", "whitespace", "space", "xidc", "xidcontinue", "xids",
    "xidstart", "idsu", "idsunaryoperator", "otheralphabetic", "oalpha",
    "otherdefaultignorablecodepoint", "odi", "othergraphemeextend", "ogrext", "otheridcontinue",
    "oidc", "otheridstart", "oids", "otherlowercase", "olower", "othermath", "omath",
    "otheruppercase", "oupper", "grlink", "graphemelink", "idcompatmathcontinue",
    "idcompatmathstart", "mcm", "modifiercombiningmark"
  ]

def ageNames : List String :=
  [
    "1.1", "v11", "10.0", "v100", "11.0", "v110", "12.0", "v120", "12.1", "v121", "13.0",
    "v130", "14.0", "v140", "15.0", "v150", "2.0", "v20", "2.1", "v21", "3.0", "v30", "3.1",
    "v31", "3.2", "v32", "4.0", "v40", "4.1", "v41", "5.0", "v50", "5.1", "v51", "5.2", "v52",
    "6.0", "v60", "6.1", "v61", "6.2", "v62", "6.3", "v63", "7.0", "v70", "8.0", "v80", "9.0",
    "v90", "15.1", "v151", "16.0", "v160"
  ]

def graphemeBreakNames : List String :=
  [
    "cn", "control", "cr", "ex", "extend", "l", "lf", "lv", "lvt", "pp", "prepend", "ri",
    "regionalindicator", "sm", "spacingmark", "t", "v", "zwj"
  ]

def wordBreakNames : List String :=
  [
    "le", "aletter", "cr", "dq", "doublequote", "extend", "ex", "extendnumlet", "fo", "format",
    "hl", "hebrewletter", "ka", "katakana", "lf", "ml", "midletter", "mn", "midnum", "mb",
    "midnumlet", "nl", "newline", "nu", "numeric", "ri", "regionalindicator", "sq",
    "singlequote", "wsegspace", "zwj"
  ]

def sentenceBreakNames : List String :=
  [
    "at", "aterm", "cr", "cl", "close", "ex", "extend", "fo", "format", "lf", "lo", "lower",
    "nu", "numeric", "le", "oletter", "sc", "scontinue", "st", "sterm", "se", "sep", "sp", "up",
    "upper"
  ]

/-- Drops a leading `is`, in any case. -/
def dropIs : List Char → Bool × List Char
  | a :: b :: r =>
    if (a == 'i' || a == 'I') && (b == 's' || b == 'S') then (true, r) else (false, a :: b :: r)
  | s => (false, s)

def looseName (s : List Char) : String :=
  let (dropped, s) := dropIs s
  let kept := (s.filter (fun c => c.toNat < 128 && c != ' ' && c != '_' && c != '-')).map
    Char.toLower
  if dropped && kept == ['c'] then "isc" else String.ofList kept

def isCategory (s : List Char) : Bool :=
  categoryNames.contains (looseName s)

def isScript (s : List Char) : Bool :=
  scriptNames.contains (looseName s)

/-- Whether a name that stands alone names a property, a category or a script. -/
def isProperty (s : List Char) : Bool :=
  binaryNames.contains (looseName s) || isCategory s || isScript s

/-- Whether the property `name` can have the value `value`. -/
def isPropertyValue (name value : List Char) : Bool :=
  match looseName name with
  | "gc" | "generalcategory" | "category" => isCategory value
  | "sc" | "script" | "scx" | "scriptextensions" => isScript value
  | "age" => ageNames.contains (looseName value)
  | "gcb" | "graphemeclusterbreak" => graphemeBreakNames.contains (looseName value)
  | "wb" | "wordbreak" => wordBreakNames.contains (looseName value)
  | "sb" | "sentencebreak" => sentenceBreakNames.contains (looseName value)
  | _ => false

end CompressionSweep.Pattern
