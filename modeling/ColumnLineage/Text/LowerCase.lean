import ColumnLineage.Text.Ranges

/-!
# Lower case

The full Unicode lower-casing of a text. Letters are mapped one by one, with two rules that look
beyond a single letter: the capital dotted I becomes two characters, and the capital sigma at the
end of a word becomes the final sigma. Names are compared in other places by their ASCII letters
only; `equalIgnoringCase` is that comparison.
-/

namespace ColumnLineage.Text

/-! ## Single letters -/

/-- A run of capital letters, every `step`-th code point from `first` to `last`, whose small
letters lie `offset` code points away. -/
structure CaseRun where
  first : Nat
  last : Nat
  /-- The distance between neighbouring capitals. -/
  step : Nat
  /-- The distance from a capital to its small letter. -/
  offset : Int

/-- Whether a code point is one of the capitals of the run. -/
def CaseRun.covers (r : CaseRun) (n : Nat) : Bool :=
  r.first ≤ n && n ≤ r.last && (n - r.first) % r.step == 0

/-- The capitals above the ASCII range with one small letter. -/
def caseRuns : List CaseRun :=
  [⟨192, 214, 1, 32⟩, ⟨216, 222, 1, 32⟩, ⟨256, 302, 2, 1⟩, ⟨306, 310, 2, 1⟩, ⟨313, 327, 2, 1⟩,
   ⟨330, 374, 2, 1⟩, ⟨376, 376, 1, -121⟩, ⟨377, 381, 2, 1⟩, ⟨385, 385, 1, 210⟩, ⟨386, 388, 2, 1⟩,
   ⟨390, 390, 1, 206⟩, ⟨391, 391, 1, 1⟩, ⟨393, 394, 1, 205⟩, ⟨395, 395, 1, 1⟩, ⟨398, 398, 1, 79⟩,
   ⟨399, 399, 1, 202⟩, ⟨400, 400, 1, 203⟩, ⟨401, 401, 1, 1⟩, ⟨403, 403, 1, 205⟩, ⟨404, 404, 1, 207⟩,
   ⟨406, 406, 1, 211⟩, ⟨407, 407, 1, 209⟩, ⟨408, 408, 1, 1⟩, ⟨412, 412, 1, 211⟩, ⟨413, 413, 1, 213⟩,
   ⟨415, 415, 1, 214⟩, ⟨416, 420, 2, 1⟩, ⟨422, 422, 1, 218⟩, ⟨423, 423, 1, 1⟩, ⟨425, 425, 1, 218⟩,
   ⟨428, 428, 1, 1⟩, ⟨430, 430, 1, 218⟩, ⟨431, 431, 1, 1⟩, ⟨433, 434, 1, 217⟩, ⟨435, 437, 2, 1⟩,
   ⟨439, 439, 1, 219⟩, ⟨440, 440, 1, 1⟩, ⟨444, 444, 1, 1⟩, ⟨452, 452, 1, 2⟩, ⟨453, 453, 1, 1⟩,
   ⟨455, 455, 1, 2⟩, ⟨456, 456, 1, 1⟩, ⟨458, 458, 1, 2⟩, ⟨459, 475, 2, 1⟩, ⟨478, 494, 2, 1⟩,
   ⟨497, 497, 1, 2⟩, ⟨498, 500, 2, 1⟩, ⟨502, 502, 1, -97⟩, ⟨503, 503, 1, -56⟩, ⟨504, 542, 2, 1⟩,
   ⟨544, 544, 1, -130⟩, ⟨546, 562, 2, 1⟩, ⟨570, 570, 1, 10795⟩, ⟨571, 571, 1, 1⟩,
   ⟨573, 573, 1, -163⟩, ⟨574, 574, 1, 10792⟩, ⟨577, 577, 1, 1⟩, ⟨579, 579, 1, -195⟩,
   ⟨580, 580, 1, 69⟩, ⟨581, 581, 1, 71⟩, ⟨582, 590, 2, 1⟩, ⟨880, 882, 2, 1⟩, ⟨886, 886, 1, 1⟩,
   ⟨895, 895, 1, 116⟩, ⟨902, 902, 1, 38⟩, ⟨904, 906, 1, 37⟩, ⟨908, 908, 1, 64⟩, ⟨910, 911, 1, 63⟩,
   ⟨913, 929, 1, 32⟩, ⟨931, 939, 1, 32⟩, ⟨975, 975, 1, 8⟩, ⟨984, 1006, 2, 1⟩, ⟨1012, 1012, 1, -60⟩,
   ⟨1015, 1015, 1, 1⟩, ⟨1017, 1017, 1, -7⟩, ⟨1018, 1018, 1, 1⟩, ⟨1021, 1023, 1, -130⟩,
   ⟨1024, 1039, 1, 80⟩, ⟨1040, 1071, 1, 32⟩, ⟨1120, 1152, 2, 1⟩, ⟨1162, 1214, 2, 1⟩,
   ⟨1216, 1216, 1, 15⟩, ⟨1217, 1229, 2, 1⟩, ⟨1232, 1326, 2, 1⟩, ⟨1329, 1366, 1, 48⟩,
   ⟨4256, 4293, 1, 7264⟩, ⟨4295, 4295, 1, 7264⟩, ⟨4301, 4301, 1, 7264⟩, ⟨5024, 5103, 1, 38864⟩,
   ⟨5104, 5109, 1, 8⟩, ⟨7305, 7305, 1, 1⟩, ⟨7312, 7354, 1, -3008⟩, ⟨7357, 7359, 1, -3008⟩,
   ⟨7680, 7828, 2, 1⟩, ⟨7838, 7838, 1, -7615⟩, ⟨7840, 7934, 2, 1⟩, ⟨7944, 7951, 1, -8⟩,
   ⟨7960, 7965, 1, -8⟩, ⟨7976, 7983, 1, -8⟩, ⟨7992, 7999, 1, -8⟩, ⟨8008, 8013, 1, -8⟩,
   ⟨8025, 8031, 2, -8⟩, ⟨8040, 8047, 1, -8⟩, ⟨8072, 8079, 1, -8⟩, ⟨8088, 8095, 1, -8⟩,
   ⟨8104, 8111, 1, -8⟩, ⟨8120, 8121, 1, -8⟩, ⟨8122, 8123, 1, -74⟩, ⟨8124, 8124, 1, -9⟩,
   ⟨8136, 8139, 1, -86⟩, ⟨8140, 8140, 1, -9⟩, ⟨8152, 8153, 1, -8⟩, ⟨8154, 8155, 1, -100⟩,
   ⟨8168, 8169, 1, -8⟩, ⟨8170, 8171, 1, -112⟩, ⟨8172, 8172, 1, -7⟩, ⟨8184, 8185, 1, -128⟩,
   ⟨8186, 8187, 1, -126⟩, ⟨8188, 8188, 1, -9⟩, ⟨8486, 8486, 1, -7517⟩, ⟨8490, 8490, 1, -8383⟩,
   ⟨8491, 8491, 1, -8262⟩, ⟨8498, 8498, 1, 28⟩, ⟨8544, 8559, 1, 16⟩, ⟨8579, 8579, 1, 1⟩,
   ⟨9398, 9423, 1, 26⟩, ⟨11264, 11311, 1, 48⟩, ⟨11360, 11360, 1, 1⟩, ⟨11362, 11362, 1, -10743⟩,
   ⟨11363, 11363, 1, -3814⟩, ⟨11364, 11364, 1, -10727⟩, ⟨11367, 11371, 2, 1⟩,
   ⟨11373, 11373, 1, -10780⟩, ⟨11374, 11374, 1, -10749⟩, ⟨11375, 11375, 1, -10783⟩,
   ⟨11376, 11376, 1, -10782⟩, ⟨11378, 11378, 1, 1⟩, ⟨11381, 11381, 1, 1⟩, ⟨11390, 11391, 1, -10815⟩,
   ⟨11392, 11490, 2, 1⟩, ⟨11499, 11501, 2, 1⟩, ⟨11506, 11506, 1, 1⟩, ⟨42560, 42604, 2, 1⟩,
   ⟨42624, 42650, 2, 1⟩, ⟨42786, 42798, 2, 1⟩, ⟨42802, 42862, 2, 1⟩, ⟨42873, 42875, 2, 1⟩,
   ⟨42877, 42877, 1, -35332⟩, ⟨42878, 42886, 2, 1⟩, ⟨42891, 42891, 1, 1⟩, ⟨42893, 42893, 1, -42280⟩,
   ⟨42896, 42898, 2, 1⟩, ⟨42902, 42920, 2, 1⟩, ⟨42922, 42922, 1, -42308⟩, ⟨42923, 42923, 1, -42319⟩,
   ⟨42924, 42924, 1, -42315⟩, ⟨42925, 42925, 1, -42305⟩, ⟨42926, 42926, 1, -42308⟩,
   ⟨42928, 42928, 1, -42258⟩, ⟨42929, 42929, 1, -42282⟩, ⟨42930, 42930, 1, -42261⟩,
   ⟨42931, 42931, 1, 928⟩, ⟨42932, 42946, 2, 1⟩, ⟨42948, 42948, 1, -48⟩, ⟨42949, 42949, 1, -42307⟩,
   ⟨42950, 42950, 1, -35384⟩, ⟨42951, 42953, 2, 1⟩, ⟨42955, 42955, 1, -42343⟩, ⟨42956, 42970, 2, 1⟩,
   ⟨42972, 42972, 1, -42561⟩, ⟨42997, 42997, 1, 1⟩, ⟨65313, 65338, 1, 32⟩, ⟨66560, 66599, 1, 40⟩,
   ⟨66736, 66771, 1, 40⟩, ⟨66928, 66938, 1, 39⟩, ⟨66940, 66954, 1, 39⟩, ⟨66956, 66962, 1, 39⟩,
   ⟨66964, 66965, 1, 39⟩, ⟨68736, 68786, 1, 64⟩, ⟨68944, 68965, 1, 32⟩, ⟨71840, 71871, 1, 32⟩,
   ⟨93760, 93791, 1, 32⟩, ⟨93856, 93880, 1, 27⟩, ⟨125184, 125217, 1, 34⟩]

/-- The small letter or letters of a character, whatever stands around it. -/
def lowerChar (c : Char) : List Char :=
  if c.toNat < 128 then [c.toLower]
  else if c.toNat = 304 then ['i', Char.ofNat 775]
  else
    match caseRuns.find? (·.covers c.toNat) with
    | some r => [Char.ofNat (Int.toNat (c.toNat + r.offset))]
    | none => [c]

/-! ## The final sigma -/

/-- The code points with the property `Cased`. -/
def casedRanges : List (Nat × Nat) :=
  rangesFrom 0 [65, 25, 7, 25, 48, 0, 11, 0, 5, 0, 6, 22, 2, 30, 2, 194, 2, 3, 5, 207, 3, 34, 8, 1,
    31, 4, 97, 0, 43, 3, 3, 1, 3, 3, 2, 0, 7, 0, 2, 2, 2, 0, 2, 19, 2, 82, 2, 138, 9, 165, 2, 37,
    10, 40, 2840, 37, 2, 0, 6, 0, 3, 42, 2, 3, 673, 85, 3, 5, 2179, 10, 6, 42, 3, 2, 65, 191, 65,
    277, 3, 5, 3, 37, 3, 5, 3, 7, 2, 0, 2, 0, 2, 0, 2, 30, 3, 52, 2, 6, 2, 0, 4, 2, 2, 6, 4, 3, 3,
    5, 5, 12, 6, 2, 2, 6, 117, 0, 14, 0, 17, 12, 102, 0, 5, 0, 3, 9, 2, 0, 4, 4, 7, 0, 2, 0, 2, 0,
    2, 3, 2, 5, 5, 0, 3, 3, 6, 4, 5, 0, 18, 31, 4, 1, 818, 51, 1815, 228, 7, 3, 4, 1, 13, 37, 2, 0,
    6, 0, 30995, 45, 19, 29, 133, 101, 4, 3, 2, 76, 21, 5, 2, 2, 822, 42, 2, 13, 7, 79, 20289, 6,
    13, 4, 1034, 25, 7, 25, 1190, 79, 97, 35, 5, 35, 117, 10, 2, 14, 2, 6, 2, 1, 2, 10, 2, 14, 2, 6,
    2, 1, 452, 0, 3, 2, 2, 41, 2, 8, 1222, 50, 14, 50, 94, 21, 11, 21, 2843, 63, 21857, 63, 33, 24,
    3, 24, 25901, 84, 2, 70, 2, 1, 3, 0, 3, 1, 3, 3, 2, 11, 2, 0, 2, 6, 2, 64, 2, 3, 3, 7, 2, 6, 2,
    27, 2, 3, 2, 4, 2, 0, 4, 6, 2, 339, 3, 24, 2, 24, 2, 30, 2, 24, 2, 30, 2, 24, 2, 30, 2, 24, 2,
    30, 2, 24, 2, 7, 1845, 9, 2, 19, 7, 5, 262, 61, 2195, 67, 2029, 25, 7, 25, 7, 25]

/-- The code points with the property `Case_Ignorable`. -/
def caseIgnorableRanges : List (Nat × Nat) :=
  rangesFrom 0 [39, 0, 7, 0, 12, 0, 36, 0, 2, 0, 72, 0, 5, 0, 2, 0, 5, 0, 3, 1, 504, 191, 5, 1, 5,
    0, 10, 1, 2, 0, 252, 6, 208, 0, 6, 0, 50, 44, 2, 0, 2, 1, 2, 1, 2, 0, 45, 0, 12, 5, 11, 10, 2,
    0, 36, 0, 11, 20, 17, 0, 102, 7, 2, 9, 2, 3, 34, 0, 2, 0, 31, 26, 92, 10, 59, 10, 5, 0, 3, 0,
    25, 23, 44, 2, 45, 0, 8, 1, 6, 8, 42, 57, 56, 0, 2, 0, 5, 7, 5, 0, 4, 6, 11, 1, 14, 0, 16, 0,
    59, 0, 5, 3, 9, 0, 21, 1, 27, 0, 3, 1, 58, 0, 5, 1, 5, 1, 3, 2, 4, 0, 31, 1, 4, 0, 12, 1, 58, 0,
    5, 4, 2, 1, 5, 0, 21, 1, 23, 5, 2, 0, 59, 0, 3, 0, 2, 3, 9, 0, 8, 1, 12, 1, 31, 0, 62, 0, 13, 0,
    51, 0, 4, 0, 56, 0, 2, 2, 6, 2, 2, 3, 8, 1, 12, 1, 30, 0, 59, 0, 3, 0, 7, 0, 6, 1, 21, 1, 29, 1,
    58, 1, 5, 3, 9, 0, 21, 1, 30, 0, 73, 0, 8, 2, 2, 0, 91, 0, 3, 6, 12, 8, 99, 0, 3, 8, 10, 0, 2,
    6, 74, 1, 28, 0, 2, 0, 2, 0, 56, 13, 2, 4, 2, 1, 6, 10, 2, 35, 10, 0, 103, 3, 2, 5, 2, 1, 3, 1,
    26, 1, 5, 2, 17, 3, 14, 0, 3, 1, 7, 0, 16, 0, 95, 0, 609, 2, 947, 2, 30, 1, 31, 1, 31, 1, 65, 1,
    2, 6, 9, 0, 3, 10, 4, 0, 6, 0, 46, 4, 52, 0, 66, 1, 35, 0, 119, 2, 5, 1, 10, 0, 7, 2, 220, 1, 3,
    0, 59, 0, 2, 6, 2, 0, 2, 0, 3, 7, 7, 9, 3, 0, 40, 0, 9, 45, 3, 11, 21, 3, 49, 0, 2, 4, 2, 0, 6,
    0, 41, 8, 13, 1, 33, 3, 3, 1, 2, 2, 57, 0, 2, 1, 4, 0, 2, 2, 59, 7, 3, 1, 65, 5, 83, 2, 2, 12,
    2, 6, 5, 0, 7, 0, 4, 1, 51, 62, 14, 0, 35, 100, 446, 0, 2, 2, 12, 2, 14, 2, 14, 2, 14, 1, 13, 4,
    9, 1, 11, 0, 3, 0, 3, 4, 50, 4, 2, 9, 2, 0, 14, 0, 17, 12, 52, 32, 2956, 1, 114, 2, 126, 0, 16,
    0, 97, 31, 48, 0, 470, 0, 37, 3, 4, 4, 6, 0, 94, 5, 94, 2, 28439, 0, 1251, 5, 271, 0, 99, 3, 2,
    9, 2, 0, 29, 3, 81, 1, 15, 33, 79, 0, 24, 2, 103, 3, 4, 1, 9, 0, 4, 0, 5, 0, 26, 1, 6, 0, 152,
    1, 27, 17, 14, 0, 39, 7, 26, 10, 47, 2, 49, 0, 3, 3, 3, 1, 18, 0, 22, 1, 67, 5, 3, 1, 3, 1, 13,
    0, 9, 0, 36, 0, 12, 0, 52, 0, 2, 2, 3, 1, 6, 1, 2, 0, 28, 0, 15, 1, 6, 1, 2, 0, 101, 4, 10, 2,
    122, 0, 3, 0, 5, 0, 20273, 0, 148, 16, 574, 15, 4, 0, 13, 15, 35, 0, 3, 0, 170, 0, 8, 0, 7, 0,
    12, 0, 36, 0, 2, 0, 48, 0, 46, 1, 68, 0, 22, 2, 514, 0, 227, 0, 150, 4, 1030, 5, 2, 41, 2, 8,
    583, 2, 2, 1, 6, 3, 41, 2, 5, 0, 166, 1, 574, 3, 39, 0, 27, 4, 2, 0, 316, 1, 25, 0, 53, 5, 71,
    10, 50, 3, 124, 0, 55, 14, 42, 0, 3, 1, 11, 2, 50, 3, 3, 1, 3, 0, 5, 0, 11, 0, 51, 2, 37, 4, 2,
    7, 63, 0, 13, 1, 53, 8, 11, 3, 3, 0, 96, 2, 3, 0, 2, 1, 7, 0, 3, 0, 158, 0, 4, 7, 22, 1, 58, 1,
    4, 0, 38, 6, 4, 4, 71, 5, 14, 0, 2, 0, 2, 0, 15, 1, 86, 7, 3, 2, 2, 0, 24, 0, 85, 5, 2, 0, 5, 1,
    2, 1, 239, 3, 7, 1, 2, 1, 28, 1, 86, 7, 3, 0, 2, 1, 107, 0, 2, 0, 3, 5, 2, 0, 102, 0, 2, 0, 3,
    3, 2, 4, 260, 8, 2, 1, 257, 1, 2, 0, 5, 0, 145, 3, 3, 1, 5, 0, 33, 9, 41, 5, 3, 3, 9, 0, 10, 5,
    3, 2, 47, 12, 2, 1, 199, 0, 2, 2, 2, 0, 202, 6, 2, 5, 2, 0, 83, 21, 3, 6, 2, 1, 2, 1, 123, 5, 4,
    0, 2, 1, 2, 6, 2, 0, 73, 1, 4, 0, 2, 0, 66, 0, 282, 1, 12, 1, 53, 4, 6, 0, 2, 0, 24, 0, 5334,
    16, 7, 14, 11465, 11, 4, 2, 2497, 4, 60, 6, 10, 3, 509, 2, 41, 1, 483, 0, 64, 16, 65, 1, 2, 1,
    14, 1, 16381, 3, 2, 6, 2, 1, 3231, 1, 2, 3, 4701, 45, 3, 22, 545, 2, 10, 15, 3, 6, 31, 3, 149,
    2, 1980, 54, 5, 49, 9, 0, 15, 0, 23, 4, 2, 14, 1361, 6, 2, 16, 3, 6, 2, 1, 2, 4, 6, 61, 34, 0,
    161, 13, 369, 0, 62, 3, 508, 4, 255, 1, 244, 0, 3, 0, 8, 1, 6, 0, 10, 0, 465, 6, 110, 7, 2736,
    4, 789506, 0, 31, 95, 129, 239]

/-- Whether the first character that is not case-ignorable is a cased letter. -/
def meetsCased (cs : List Char) : Bool :=
  match cs.dropWhile fun c => inRanges caseIgnorableRanges c.toNat with
  | [] => false
  | c :: _ => inRanges casedRanges c.toNat

/-- The small letters of a text; `before` is what stands before it, last character first. A
capital sigma is final if a cased letter stands before it and none after it. -/
def lowerFrom (before : List Char) : List Char → List Char
  | [] => []
  | c :: rest =>
    (if c.toNat = 931 then
      [if meetsCased before && !meetsCased rest then Char.ofNat 962 else Char.ofNat 963]
    else lowerChar c) ++ lowerFrom (c :: before) rest

def toLower (s : String) : String :=
  String.ofList (lowerFrom [] s.toList)

/-! ## ASCII comparison -/

/-- Equality of texts that takes no notice of the case of ASCII letters. -/
def equalIgnoringCase (s t : String) : Bool :=
  s.toList.map Char.toLower == t.toList.map Char.toLower

/-- Every text equals itself. -/
@[simp] theorem equalIgnoringCase_refl (s : String) : equalIgnoringCase s s = true := by
  simp [equalIgnoringCase]

/-- The comparison is symmetric. -/
theorem equalIgnoringCase_comm (s t : String) :
    equalIgnoringCase s t = equalIgnoringCase t s := by
  exact BEq.comm

end ColumnLineage.Text
