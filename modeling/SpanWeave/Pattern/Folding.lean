import SpanWeave.Pattern.CharSet

set_option autoImplicit false

/-!
# Letter case

Which characters differ in case only. Most come in pairs at a fixed distance; the others are listed.
-/
namespace SpanWeave.CharSet

/-- From the first to the second code point, in steps of the last number, each letter and the one at
the given distance above it differ in case only. -/
def casePairs : List (Nat × Nat × Nat × Nat) :=
  [(0x41, 0x4a, 0x20, 1), (0x4c, 0x52, 0x20, 1), (0x54, 0x5a, 0x20, 1), (0xc0, 0xc4, 0x20, 1),
    (0xc6, 0xd6, 0x20, 1), (0xd8, 0xde, 0x20, 1), (0xdf, 0xdf, 0x1dbf, 1), (0xff, 0xff, 0x79, 1),
    (0x100, 0x12e, 0x1, 2), (0x132, 0x136, 0x1, 2), (0x139, 0x147, 0x1, 2), (0x14a, 0x176, 0x1, 2),
    (0x179, 0x17d, 0x1, 2), (0x180, 0x180, 0xc3, 1), (0x181, 0x181, 0xd2, 1),
    (0x182, 0x184, 0x1, 2), (0x186, 0x186, 0xce, 1), (0x187, 0x187, 0x1, 1),
    (0x189, 0x18a, 0xcd, 1), (0x18b, 0x18b, 0x1, 1), (0x18e, 0x18e, 0x4f, 1),
    (0x18f, 0x18f, 0xca, 1), (0x190, 0x190, 0xcb, 1), (0x191, 0x191, 0x1, 1),
    (0x193, 0x193, 0xcd, 1), (0x194, 0x194, 0xcf, 1), (0x195, 0x195, 0x61, 1),
    (0x196, 0x196, 0xd3, 1), (0x197, 0x197, 0xd1, 1), (0x198, 0x198, 0x1, 1),
    (0x19a, 0x19a, 0xa3, 1), (0x19b, 0x19b, 0xa641, 1), (0x19c, 0x19c, 0xd3, 1),
    (0x19d, 0x19d, 0xd5, 1), (0x19e, 0x19e, 0x82, 1), (0x19f, 0x19f, 0xd6, 1),
    (0x1a0, 0x1a4, 0x1, 2), (0x1a6, 0x1a6, 0xda, 1), (0x1a7, 0x1a7, 0x1, 1),
    (0x1a9, 0x1a9, 0xda, 1), (0x1ac, 0x1ac, 0x1, 1), (0x1ae, 0x1ae, 0xda, 1),
    (0x1af, 0x1af, 0x1, 1), (0x1b1, 0x1b2, 0xd9, 1), (0x1b3, 0x1b5, 0x1, 2),
    (0x1b7, 0x1b7, 0xdb, 1), (0x1b8, 0x1b8, 0x1, 1), (0x1bc, 0x1bc, 0x1, 1),
    (0x1bf, 0x1bf, 0x38, 1), (0x1cd, 0x1db, 0x1, 2), (0x1de, 0x1ee, 0x1, 2), (0x1f4, 0x1f4, 0x1, 1),
    (0x1f8, 0x21e, 0x1, 2), (0x222, 0x232, 0x1, 2), (0x23a, 0x23a, 0x2a2b, 1),
    (0x23b, 0x23b, 0x1, 1), (0x23e, 0x23e, 0x2a28, 1), (0x23f, 0x240, 0x2a3f, 1),
    (0x241, 0x241, 0x1, 1), (0x244, 0x244, 0x45, 1), (0x245, 0x245, 0x47, 1),
    (0x246, 0x24e, 0x1, 2), (0x250, 0x250, 0x2a1f, 1), (0x251, 0x251, 0x2a1c, 1),
    (0x252, 0x252, 0x2a1e, 1), (0x25c, 0x25c, 0xa54f, 1), (0x261, 0x261, 0xa54b, 1),
    (0x264, 0x264, 0xa567, 1), (0x265, 0x265, 0xa528, 1), (0x266, 0x266, 0xa544, 1),
    (0x26a, 0x26a, 0xa544, 1), (0x26b, 0x26b, 0x29f7, 1), (0x26c, 0x26c, 0xa541, 1),
    (0x271, 0x271, 0x29fd, 1), (0x27d, 0x27d, 0x29e7, 1), (0x282, 0x282, 0xa543, 1),
    (0x287, 0x287, 0xa52a, 1), (0x29d, 0x29d, 0xa515, 1), (0x29e, 0x29e, 0xa512, 1),
    (0x370, 0x372, 0x1, 2), (0x376, 0x376, 0x1, 1), (0x37b, 0x37d, 0x82, 1),
    (0x37f, 0x37f, 0x74, 1), (0x386, 0x386, 0x26, 1), (0x388, 0x38a, 0x25, 1),
    (0x38c, 0x38c, 0x40, 1), (0x38e, 0x38f, 0x3f, 1), (0x390, 0x390, 0x1c43, 1),
    (0x391, 0x393, 0x20, 2), (0x394, 0x396, 0x20, 2), (0x397, 0x397, 0x20, 1),
    (0x39b, 0x39d, 0x20, 2), (0x39e, 0x39f, 0x20, 1), (0x3a4, 0x3a5, 0x20, 1),
    (0x3a7, 0x3a8, 0x20, 1), (0x3aa, 0x3ab, 0x20, 1), (0x3b0, 0x3b0, 0x1c33, 1),
    (0x3cf, 0x3cf, 0x8, 1), (0x3d8, 0x3ee, 0x1, 2), (0x3f2, 0x3f2, 0x7, 1), (0x3f7, 0x3f7, 0x1, 1),
    (0x3fa, 0x3fa, 0x1, 1), (0x400, 0x40f, 0x50, 1), (0x410, 0x411, 0x20, 1),
    (0x413, 0x415, 0x20, 2), (0x416, 0x41d, 0x20, 1), (0x41f, 0x420, 0x20, 1),
    (0x423, 0x429, 0x20, 1), (0x42b, 0x42f, 0x20, 1), (0x460, 0x460, 0x1, 1),
    (0x464, 0x480, 0x1, 2), (0x48a, 0x4be, 0x1, 2), (0x4c0, 0x4c0, 0xf, 1), (0x4c1, 0x4cd, 0x1, 2),
    (0x4d0, 0x52e, 0x1, 2), (0x531, 0x556, 0x30, 1), (0x10a0, 0x10c5, 0x1c60, 1),
    (0x10c7, 0x10c7, 0x1c60, 1), (0x10cd, 0x10cd, 0x1c60, 1), (0x10d0, 0x10fa, 0xbc0, 1),
    (0x10fd, 0x10ff, 0xbc0, 1), (0x13a0, 0x13ef, 0x97d0, 1), (0x13f0, 0x13f5, 0x8, 1),
    (0x1c89, 0x1c89, 0x1, 1), (0x1d79, 0x1d79, 0x8a04, 1), (0x1d7d, 0x1d7d, 0xee6, 1),
    (0x1d8e, 0x1d8e, 0x8a38, 1), (0x1e00, 0x1e5e, 0x1, 2), (0x1e62, 0x1e94, 0x1, 2),
    (0x1ea0, 0x1efe, 0x1, 2), (0x1f00, 0x1f07, 0x8, 1), (0x1f10, 0x1f15, 0x8, 1),
    (0x1f20, 0x1f27, 0x8, 1), (0x1f30, 0x1f37, 0x8, 1), (0x1f40, 0x1f45, 0x8, 1),
    (0x1f51, 0x1f57, 0x8, 2), (0x1f60, 0x1f67, 0x8, 1), (0x1f70, 0x1f71, 0x4a, 1),
    (0x1f72, 0x1f75, 0x56, 1), (0x1f76, 0x1f77, 0x64, 1), (0x1f78, 0x1f79, 0x80, 1),
    (0x1f7a, 0x1f7b, 0x70, 1), (0x1f7c, 0x1f7d, 0x7e, 1), (0x1f80, 0x1f87, 0x8, 1),
    (0x1f90, 0x1f97, 0x8, 1), (0x1fa0, 0x1fa7, 0x8, 1), (0x1fb0, 0x1fb1, 0x8, 1),
    (0x1fb3, 0x1fb3, 0x9, 1), (0x1fc3, 0x1fc3, 0x9, 1), (0x1fd0, 0x1fd1, 0x8, 1),
    (0x1fe0, 0x1fe1, 0x8, 1), (0x1fe5, 0x1fe5, 0x7, 1), (0x1ff3, 0x1ff3, 0x9, 1),
    (0x2132, 0x2132, 0x1c, 1), (0x2160, 0x216f, 0x10, 1), (0x2183, 0x2183, 0x1, 1),
    (0x24b6, 0x24cf, 0x1a, 1), (0x2c00, 0x2c2f, 0x30, 1), (0x2c60, 0x2c60, 0x1, 1),
    (0x2c67, 0x2c6b, 0x1, 2), (0x2c72, 0x2c72, 0x1, 1), (0x2c75, 0x2c75, 0x1, 1),
    (0x2c80, 0x2ce2, 0x1, 2), (0x2ceb, 0x2ced, 0x1, 2), (0x2cf2, 0x2cf2, 0x1, 1),
    (0xa640, 0xa648, 0x1, 2), (0xa64c, 0xa66c, 0x1, 2), (0xa680, 0xa69a, 0x1, 2),
    (0xa722, 0xa72e, 0x1, 2), (0xa732, 0xa76e, 0x1, 2), (0xa779, 0xa77b, 0x1, 2),
    (0xa77e, 0xa786, 0x1, 2), (0xa78b, 0xa78b, 0x1, 1), (0xa790, 0xa792, 0x1, 2),
    (0xa794, 0xa794, 0x30, 1), (0xa796, 0xa7a8, 0x1, 2), (0xa7b3, 0xa7b3, 0x3a0, 1),
    (0xa7b4, 0xa7c2, 0x1, 2), (0xa7c7, 0xa7c9, 0x1, 2), (0xa7cc, 0xa7cc, 0x1, 1),
    (0xa7d0, 0xa7d0, 0x1, 1), (0xa7d6, 0xa7d8, 0x1, 2), (0xa7da, 0xa7da, 0x1, 1),
    (0xa7f5, 0xa7f5, 0x1, 1), (0xfb05, 0xfb05, 0x1, 1), (0xff21, 0xff3a, 0x20, 1),
    (0x10400, 0x10427, 0x28, 1), (0x104b0, 0x104d3, 0x28, 1), (0x10570, 0x1057a, 0x27, 1),
    (0x1057c, 0x1058a, 0x27, 1), (0x1058c, 0x10592, 0x27, 1), (0x10594, 0x10595, 0x27, 1),
    (0x10c80, 0x10cb2, 0x40, 1), (0x10d50, 0x10d65, 0x20, 1), (0x118a0, 0x118bf, 0x20, 1),
    (0x16e40, 0x16e5f, 0x20, 1), (0x1e900, 0x1e921, 0x22, 1)]

def caseGroups : List (List Nat) :=
  [[0x4b, 0x6b, 0x212a], [0x53, 0x73, 0x17f], [0xb5, 0x39c, 0x3bc], [0xc5, 0xe5, 0x212b],
   [0x1c4, 0x1c5, 0x1c6], [0x1c7, 0x1c8, 0x1c9], [0x1ca, 0x1cb, 0x1cc], [0x1f1, 0x1f2, 0x1f3],
   [0x345, 0x399, 0x3b9, 0x1fbe], [0x392, 0x3b2, 0x3d0], [0x395, 0x3b5, 0x3f5],
   [0x398, 0x3b8, 0x3d1, 0x3f4], [0x39a, 0x3ba, 0x3f0], [0x3a0, 0x3c0, 0x3d6],
   [0x3a1, 0x3c1, 0x3f1], [0x3a3, 0x3c2, 0x3c3], [0x3a6, 0x3c6, 0x3d5], [0x3a9, 0x3c9, 0x2126],
   [0x412, 0x432, 0x1c80], [0x414, 0x434, 0x1c81], [0x41e, 0x43e, 0x1c82],
   [0x421, 0x441, 0x1c83], [0x422, 0x442, 0x1c84, 0x1c85], [0x42a, 0x44a, 0x1c86],
   [0x462, 0x463, 0x1c87], [0x1c88, 0xa64a, 0xa64b], [0x1e60, 0x1e61, 0x1e9b]]

def caseOrbits : List (List Nat) :=
  casePairs.flatMap (fun (lo, hi, distance, step) =>
    (List.range ((hi - lo) / step + 1)).map fun k =>
      [lo + k * step, lo + k * step + distance]) ++ caseGroups

def asciiCaseOrbits : List (List Nat) := (List.range 26).map fun k => [0x41 + k, 0x61 + k]

/-- The set with each of the orbits of which it has a member. -/
def foldedBy (orbits : List (List Nat)) (s : CharSet) : CharSet :=
  match orbits.filter fun orbit => orbit.any (within · s.ranges) with
  | [] => s
  | found => ofRanges (s.ranges ++ found.flatten.map fun n => (n, n))

def folded (s : CharSet) : CharSet := s.foldedBy caseOrbits

def foldedAscii (s : CharSet) : CharSet := s.foldedBy asciiCaseOrbits

end SpanWeave.CharSet
