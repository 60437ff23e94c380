import Transcript.Text
import Transcript.Text.Class

/-!
Clusters of characters, which a reader takes for one, and the backspaces of a typed line, which take them back.
-/
namespace Transcript.Text

/-!
## Consonants

Consonants of the scripts that write several as one, and the signs that bind them: the values Consonant
and Linker of the Unicode property Indic_Conjunct_Break.
-/

/-- The ranges of consonants. -/
def consonantRanges : CharRanges :=
  [(2325, 2361), (2392, 2399), (2424, 2431), (2453, 2472), (2474, 2480), (2482, 2482),
   (2486, 2489), (2524, 2525), (2527, 2527), (2544, 2545), (2709, 2728), (2730, 2736),
   (2738, 2739), (2741, 2745), (2809, 2809), (2837, 2856), (2858, 2864), (2866, 2867),
   (2869, 2873), (2908, 2909), (2911, 2911), (2929, 2929), (3093, 3112), (3114, 3129),
   (3160, 3162), (3349, 3386), (4096, 4138), (4159, 4159), (4176, 4181), (4186, 4189),
   (4193, 4193), (4197, 4198), (4206, 4208), (4213, 4225), (4238, 4238), (6016, 6067),
   (6688, 6740), (6923, 6924), (6931, 6963), (6981, 6988), (7043, 7072), (7086, 7087),
   (7099, 7101), (43401, 43403), (43407, 43442), (43488, 43492), (43495, 43503), (43514, 43518),
   (43616, 43631), (43633, 43635), (43642, 43642), (43646, 43647), (43744, 43754), (43968, 43994),
   (68096, 68096), (68112, 68115), (68117, 68119), (68121, 68149), (69891, 69926), (69956, 69956),
   (69959, 69959), (70528, 70537), (70539, 70539), (70542, 70542), (70544, 70581), (71936, 71942),
   (71945, 71945), (71948, 71955), (71957, 71958), (71960, 71983), (72192, 72192), (72203, 72242),
   (72272, 72272), (72284, 72323), (73476, 73488), (73490, 73523)]

/-- The ranges of signs that bind a consonant to the next one. -/
def linkerRanges : CharRanges :=
  [(2381, 2381), (2509, 2509), (2765, 2765), (2893, 2893), (3149, 3149), (3405, 3405),
   (4153, 4153), (6098, 6098), (6752, 6752), (6980, 6980), (7083, 7083), (43456, 43456),
   (43766, 43766), (68159, 68159), (69939, 69939), (70608, 70608), (71998, 71998), (72263, 72263),
   (72345, 72345), (73538, 73538)]

/-- Whether `c` is a consonant that can be bound. -/
def isConsonant (c : Char) : Bool :=
  consonantRanges.contains c.toNat

/-- Whether `c` binds consonants. -/
def isLinker (c : Char) : Bool :=
  linkerRanges.contains c.toNat

/-!
## Pictographs

Pictographs, which a joiner binds into one picture: the Unicode property Extended_Pictographic.
-/

/-- The ranges of Extended_Pictographic. -/
def pictographRanges : CharRanges :=
  [(169, 169), (174, 174), (8252, 8252), (8265, 8265), (8482, 8482), (8505, 8505), (8596, 8601),
   (8617, 8618), (8986, 8987), (9000, 9000), (9167, 9167), (9193, 9203), (9208, 9210),
   (9410, 9410), (9642, 9643), (9654, 9654), (9664, 9664), (9723, 9726), (9728, 9732),
   (9742, 9742), (9745, 9745), (9748, 9749), (9752, 9752), (9757, 9757), (9760, 9760),
   (9762, 9763), (9766, 9766), (9770, 9770), (9774, 9775), (9784, 9786), (9792, 9792),
   (9794, 9794), (9800, 9811), (9823, 9824), (9827, 9827), (9829, 9830), (9832, 9832),
   (9851, 9851), (9854, 9855), (9874, 9879), (9881, 9881), (9883, 9884), (9888, 9889),
   (9895, 9895), (9898, 9899), (9904, 9905), (9917, 9918), (9924, 9925), (9928, 9928),
   (9934, 9935), (9937, 9937), (9939, 9940), (9961, 9962), (9968, 9973), (9975, 9978),
   (9981, 9981), (9986, 9986), (9989, 9989), (9992, 9997), (9999, 9999), (10002, 10002),
   (10004, 10004), (10006, 10006), (10013, 10013), (10017, 10017), (10024, 10024), (10035, 10036),
   (10052, 10052), (10055, 10055), (10060, 10060), (10062, 10062), (10067, 10069), (10071, 10071),
   (10083, 10084), (10133, 10135), (10145, 10145), (10160, 10160), (10175, 10175), (10548, 10549),
   (11013, 11015), (11035, 11036), (11088, 11088), (11093, 11093), (12336, 12336), (12349, 12349),
   (12951, 12951), (12953, 12953), (126980, 126980), (127020, 127023), (127124, 127135),
   (127151, 127152), (127168, 127168), (127183, 127184), (127222, 127231), (127344, 127345),
   (127358, 127359), (127374, 127374), (127377, 127386), (127406, 127461), (127489, 127503),
   (127514, 127514), (127535, 127535), (127538, 127546), (127548, 127551), (127561, 127583),
   (127590, 127777), (127780, 127891), (127894, 127895), (127897, 127899), (127902, 127984),
   (127987, 127989), (127991, 127994), (128000, 128253), (128255, 128317), (128329, 128334),
   (128336, 128359), (128367, 128368), (128371, 128378), (128391, 128391), (128394, 128397),
   (128400, 128400), (128405, 128406), (128420, 128421), (128424, 128424), (128433, 128434),
   (128444, 128444), (128450, 128452), (128465, 128467), (128476, 128478), (128481, 128481),
   (128483, 128483), (128488, 128488), (128495, 128495), (128499, 128499), (128506, 128591),
   (128640, 128709), (128715, 128722), (128725, 128741), (128745, 128745), (128747, 128752),
   (128755, 128767), (128986, 129023), (129036, 129039), (129096, 129103), (129114, 129119),
   (129160, 129167), (129198, 129199), (129212, 129215), (129218, 129231), (129241, 129279),
   (129292, 129338), (129340, 129349), (129351, 129535), (129624, 129631), (129646, 129791),
   (130048, 131069)]

/-- Whether `c` is a pictograph. -/
def isPictograph (c : Char) : Bool :=
  pictographRanges.contains c.toNat

/-!
## Spacing marks

Marks with a width of their own that still belong to the character before them, and signs that belong to
the character behind them: the values SpacingMark and Prepend of the Unicode property
Grapheme_Cluster_Break.
-/

/-- The ranges of SpacingMark. -/
def spacingMarkRanges : CharRanges :=
  [(2307, 2307), (2363, 2363), (2366, 2368), (2377, 2380), (2382, 2383), (2434, 2435),
   (2495, 2496), (2503, 2504), (2507, 2508), (2563, 2563), (2622, 2624), (2691, 2691),
   (2750, 2752), (2761, 2761), (2763, 2764), (2818, 2819), (2880, 2880), (2887, 2888),
   (2891, 2892), (3007, 3007), (3009, 3010), (3014, 3016), (3018, 3020), (3073, 3075),
   (3137, 3140), (3202, 3203), (3262, 3262), (3265, 3265), (3267, 3268), (3315, 3315),
   (3330, 3331), (3391, 3392), (3398, 3400), (3402, 3404), (3458, 3459), (3536, 3537),
   (3544, 3550), (3570, 3571), (3635, 3635), (3763, 3763), (3902, 3903), (3967, 3967),
   (4145, 4145), (4155, 4156), (4182, 4183), (4228, 4228), (6070, 6070), (6078, 6085),
   (6087, 6088), (6435, 6438), (6441, 6443), (6448, 6449), (6451, 6456), (6681, 6682),
   (6741, 6741), (6743, 6743), (6765, 6770), (6916, 6916), (6974, 6977), (7042, 7042),
   (7073, 7073), (7078, 7079), (7143, 7143), (7146, 7148), (7150, 7150), (7204, 7211),
   (7220, 7221), (7393, 7393), (7415, 7415), (43043, 43044), (43047, 43047), (43136, 43137),
   (43188, 43203), (43346, 43346), (43395, 43395), (43444, 43445), (43450, 43451), (43454, 43455),
   (43567, 43568), (43571, 43572), (43597, 43597), (43755, 43755), (43758, 43759), (43765, 43765),
   (44003, 44004), (44006, 44007), (44009, 44010), (44012, 44012), (69632, 69632), (69634, 69634),
   (69762, 69762), (69808, 69810), (69815, 69816), (69932, 69932), (69957, 69958), (70018, 70018),
   (70067, 70069), (70079, 70079), (70094, 70094), (70188, 70190), (70194, 70195), (70368, 70370),
   (70402, 70403), (70463, 70463), (70465, 70468), (70471, 70472), (70475, 70476), (70498, 70499),
   (70585, 70586), (70602, 70602), (70604, 70605), (70709, 70711), (70720, 70721), (70725, 70725),
   (70833, 70834), (70841, 70841), (70843, 70844), (70846, 70846), (70849, 70849), (71088, 71089),
   (71096, 71099), (71102, 71102), (71216, 71218), (71227, 71228), (71230, 71230), (71340, 71340),
   (71342, 71343), (71454, 71454), (71462, 71462), (71724, 71726), (71736, 71736), (71985, 71989),
   (71991, 71992), (72000, 72000), (72002, 72002), (72145, 72147), (72156, 72159), (72164, 72164),
   (72249, 72249), (72279, 72280), (72343, 72343), (72545, 72545), (72549, 72549), (72551, 72551),
   (72751, 72751), (72766, 72766), (72873, 72873), (72881, 72881), (72884, 72884), (73098, 73102),
   (73107, 73108), (73110, 73110), (73461, 73462), (73475, 73475), (73524, 73525), (73534, 73535),
   (90410, 90412), (94033, 94087)]

/-- The ranges of Prepend. -/
def prependedRanges : CharRanges :=
  [(1536, 1541), (1757, 1757), (1807, 1807), (2192, 2193), (2274, 2274), (3406, 3406),
   (69821, 69821), (69837, 69837), (70082, 70083), (70609, 70609), (71999, 71999), (72001, 72001),
   (72324, 72329), (73030, 73030), (73474, 73474)]

/-- Whether `c` is a mark with a width behind its character. -/
def isSpacingMark (c : Char) : Bool :=
  spacingMarkRanges.contains c.toNat

/-- Whether `c` is a sign in front of its character. -/
def isPrepended (c : Char) : Bool :=
  prependedRanges.contains c.toNat

/-!
## Classes

Classes of characters by how they join their neighbours: the values of the Unicode property
Grapheme_Cluster_Break, with the pictographs and the consonants that can be bound.
-/

/-- How a character joins its neighbours. -/
inductive ClusterClass where
  | carriageReturn
  | lineFeed
  | control
  | extending
  | joiner
  | spacingMark
  | prepended
  | regional
  | leadingJamo
  | vowelJamo
  | trailingJamo
  | openSyllable
  | closedSyllable
  | pictograph
  | consonant
  | other
  deriving DecidableEq, Repr

/-- The ranges of Control: controls, separators of lines, and format characters that join nothing. -/
def controlRanges : CharRanges :=
  [(0, 9), (11, 12), (14, 31), (127, 159), (173, 173), (1564, 1564), (6158, 6158), (8203, 8203),
   (8206, 8207), (8232, 8238), (8288, 8303), (65279, 65279), (65520, 65531), (78896, 78911),
   (113824, 113827), (119155, 119162), (917504, 917535), (917632, 917759), (918000, 921599)]

def zeroWidthJoiner : Char := '\u200d'

/-- The zero width character that keeps its neighbours apart. -/
def zeroWidthNonJoiner : Char := '\u200c'

/-- Regional letters: two of them make a flag. -/
def regionalRanges : CharRanges := [(127462, 127487)]

/-- The five colours of skin. They change the pictograph in front of them. -/
def skinColourRanges : CharRanges := [(127995, 127999)]

/-- The halfwidth voicing marks. They are letters and still extend the letter in front of them. -/
def voicingMarkRanges : CharRanges := [(65438, 65439)]

/-- The jamo that open a syllable. -/
def leadingJamoRanges : CharRanges := [(4352, 4447), (43360, 43388)]

/-- The jamo in the middle of a syllable. -/
def vowelJamoRanges : CharRanges :=
  [(4448, 4519), (55216, 55238), (93539, 93539), (93543, 93546)]

/-- The jamo that close a syllable. -/
def trailingJamoRanges : CharRanges := [(4520, 4607), (55243, 55291)]

/-- The first and the last of the Hangul syllables. -/
def syllableRanges : CharRanges := [(44032, 55203)]

/-- How many syllables begin alike; the first of them has no closing consonant. -/
def closingsPerSyllable : Nat := 28

/-- Whether `c` extends the character before it, whatever that is. -/
def extendsAny (c : Char) : Bool :=
  isExtending c || voicingMarkRanges.contains c.toNat || skinColourRanges.contains c.toNat

/-- The class of a Hangul character. -/
def hangulClass? (c : Char) : Option ClusterClass :=
  if leadingJamoRanges.contains c.toNat then some .leadingJamo
  else if vowelJamoRanges.contains c.toNat then some .vowelJamo
  else if trailingJamoRanges.contains c.toNat then some .trailingJamo
  else if syllableRanges.contains c.toNat then
    if (c.toNat - 44032) % closingsPerSyllable = 0 then some .openSyllable else some .closedSyllable
  else none

/-- The class of a character. -/
def clusterClass (c : Char) : ClusterClass :=
  if c = '\r' then .carriageReturn
  else if c = '\n' then .lineFeed
  else if c = zeroWidthJoiner then .joiner
  else if controlRanges.contains c.toNat then .control
  else if extendsAny c then .extending
  else if isSpacingMark c then .spacingMark
  else if isPrepended c then .prepended
  else if regionalRanges.contains c.toNat then .regional
  else if isPictograph c then .pictograph
  else if isConsonant c then .consonant
  else (hangulClass? c).getD .other

/-!
## Clusters

Clusters: what a reader takes for one character, such as a letter with its accents, a syllable, a flag or
a picture of several joined ones. The text is cut as Unicode cuts it into extended grapheme clusters. What
is needed of the characters already in a cluster to say whether the next one joins them is an `Ending`.
-/

/-- How a cluster ends that may go on. -/
structure Ending where
  /-- The class of the last character. -/
  last : ClusterClass
  /-- Whether the cluster ends in a regional letter without its partner. -/
  isHalfFlag : Bool
  /-- Whether it ends in a pictograph and what extends that. -/
  isPicture : Bool
  /-- Whether it ends in a picture and one joiner. -/
  isJoinedPicture : Bool
  /-- Whether it ends in a consonant and its marks. -/
  isConjunct : Bool
  /-- Whether one of these marks binds the next consonant. -/
  isBound : Bool
  deriving DecidableEq, Repr

namespace Ending

/-- The ending of a cluster of one character. -/
def start (c : Char) : Ending :=
  let k := clusterClass c
  { last := k
    isHalfFlag := k == .regional
    isPicture := k == .pictograph
    isJoinedPicture := false
    isConjunct := k == .consonant
    isBound := false }

/-- Whether a mark leaves the consonant before it open. -/
def keepsConjunct (c : Char) : Bool :=
  match clusterClass c with
  | .joiner => true
  | .extending => c != zeroWidthNonJoiner
  | _ => false

/-- The ending with one more character. -/
def push (e : Ending) (c : Char) : Ending :=
  let k := clusterClass c
  let isOpen := e.isConjunct && keepsConjunct c
  { last := k
    isHalfFlag := k == .regional && !e.isHalfFlag
    isPicture := k == .pictograph || e.isPicture && k == .extending
    isJoinedPicture := e.isPicture && k == .joiner
    isConjunct := k == .consonant || isOpen
    isBound := isOpen && (e.isBound || isLinker c) }

/-- Whether a character joins the ones before it. Controls join nothing but a carriage return its line
feed; jamo join into syllables; marks join what they stand behind, and prepended signs what they stand in
front of; consonants, pictures and flags join if something binds them. -/
def joins (e : Ending) (c : Char) : Bool :=
  match e.last, clusterClass c with
  | .carriageReturn, .lineFeed => true
  | .carriageReturn, _ => false
  | .lineFeed, _ => false
  | .control, _ => false
  | _, .carriageReturn => false
  | _, .lineFeed => false
  | _, .control => false
  | .leadingJamo, .leadingJamo => true
  | .leadingJamo, .vowelJamo => true
  | .leadingJamo, .openSyllable => true
  | .leadingJamo, .closedSyllable => true
  | .openSyllable, .vowelJamo => true
  | .openSyllable, .trailingJamo => true
  | .vowelJamo, .vowelJamo => true
  | .vowelJamo, .trailingJamo => true
  | .closedSyllable, .trailingJamo => true
  | .trailingJamo, .trailingJamo => true
  | _, .extending => true
  | _, .joiner => true
  | _, .spacingMark => true
  | .prepended, _ => true
  | _, .consonant => e.isBound
  | .joiner, .pictograph => e.isJoinedPicture
  | .regional, .regional => e.isHalfFlag
  | _, _ => false

end Ending

/-- Puts a character in front of the first cluster. -/
def consFirst (c : Char) : List (List Char) → List (List Char)
  | [] => [[c]]
  | p :: ps => (c :: p) :: ps

/-- The clusters behind an ending; the first one holds what still joins it. -/
def clustersAfter (e : Ending) : List Char → List (List Char)
  | [] => [[]]
  | c :: cs =>
    if e.joins c then consFirst c (clustersAfter (e.push c) cs)
    else [] :: consFirst c (clustersAfter (.start c) cs)

def clusters : List Char → List (List Char)
  | [] => []
  | c :: cs => consFirst c (clustersAfter (.start c) cs)

/-!
## Rubbing out

Rubbing out. A backspace in a typed line takes back the cluster before it. The length of a cluster is kept
in one byte, so of a cluster of 256 bytes or more only the remainder is taken back; a remainder that ends
inside a character tears it, and the line is none.
-/

/-- The character that takes back a cluster. -/
def backspace : Char := '\x08'

/-- One more than the longest length that is kept. -/
def clusterLengths : Nat := 256

/-- A line as it is typed, and the lengths of its clusters; the last ones come first. -/
structure TypedLine where
  backwards : List Char := []
  lengths : List Nat := []
  deriving DecidableEq, Repr

/-- Drops characters of so many bytes together. There are none if the last one is longer than what is left
of them. -/
def dropBytes? : Nat → List Char → Option (List Char)
  | 0, cs => some cs
  | _, [] => some []
  | n, c :: cs => if c.utf8Size ≤ n then dropBytes? (n - c.utf8Size) cs else none

namespace TypedLine

def push (t : TypedLine) (cluster : List Char) : TypedLine where
  backwards := cluster.reverse ++ t.backwards
  lengths := byteLength cluster % clusterLengths :: t.lengths

/-- The line without its last cluster; an empty line stays empty. -/
def rubOut? (t : TypedLine) : Option TypedLine :=
  match t.lengths with
  | [] => some t
  | n :: lengths => (dropBytes? n t.backwards).map fun cs => ⟨cs, lengths⟩

def type? (t : TypedLine) (cluster : List Char) : Option TypedLine :=
  if cluster = [backspace] then t.rubOut? else some (t.push cluster)

def text (t : TypedLine) : String := String.ofList t.backwards.reverse

end TypedLine

/-- The text of a line whose backspaces have been carried out. -/
def rubbedOut? (line : String) : Option String :=
  ((clusters line.toList).foldlM TypedLine.type? {}).map TypedLine.text

end Transcript.Text
