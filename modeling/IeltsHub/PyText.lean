import IeltsHub.PyExc

set_option autoImplicit false

/-!
# Python text

`str` as Python 3.12 treats it, over Lean's `String`: what counts as white space, which
characters are decimal and which only digits, full case folding, and the conversion between
integers and text with its bound on the number of digits. The tables are those of Unicode 15.0,
written as runs of code points.
-/
namespace IeltsHub.PyText
open PyExc

/-- `str.isspace` for one character. -/
def isSpace (c : Char) : Bool :=
  let n := c.toNat
  (0x9 ≤ n && n ≤ 0xd) || (0x1c ≤ n && n ≤ 0x20) || n == 0x85 || n == 0xa0 || n == 0x1680 ||
    (0x2000 ≤ n && n ≤ 0x200a) || n == 0x2028 || n == 0x2029 || n == 0x202f || n == 0x205f ||
    n == 0x3000

def decimalRuns : List ℕ := [
  0x30, 0x660, 0x6f0, 0x7c0, 0x966, 0x9e6, 0xa66, 0xae6, 0xb66, 0xbe6, 0xc66, 0xce6, 0xd66,
  0xde6, 0xe50, 0xed0, 0xf20, 0x1040, 0x1090, 0x17e0, 0x1810, 0x1946, 0x19d0, 0x1a80, 0x1a90,
  0x1b50, 0x1bb0, 0x1c40, 0x1c50, 0xa620, 0xa8d0, 0xa900, 0xa9d0, 0xa9f0, 0xaa50, 0xabf0, 0xff10,
  0x104a0, 0x10d30, 0x11066, 0x110f0, 0x11136, 0x111d0, 0x112f0, 0x11450, 0x114d0, 0x11650,
  0x116c0, 0x11730, 0x118e0, 0x11950, 0x11c50, 0x11d50, 0x11da0, 0x11f50, 0x16a60, 0x16ac0,
  0x16b50, 0x1d7ce, 0x1d7d8, 0x1d7e2, 0x1d7ec, 0x1d7f6, 0x1e140, 0x1e2f0, 0x1e4f0, 0x1e950,
  0x1fbf0]

/-- The runs of characters that are digits and not decimals, first and last. -/
def digitRuns : List (ℕ × ℕ) := [
  (0xb2, 0xb3), (0xb9, 0xb9), (0x1369, 0x1371), (0x19da, 0x19da), (0x2070, 0x2070),
  (0x2074, 0x2079), (0x2080, 0x2089), (0x2460, 0x2468), (0x2474, 0x247c), (0x2488, 0x2490),
  (0x24ea, 0x24ea), (0x24f5, 0x24fd), (0x24ff, 0x24ff), (0x2776, 0x277e), (0x2780, 0x2788),
  (0x278a, 0x2792), (0x10a40, 0x10a43), (0x10e60, 0x10e68), (0x11052, 0x1105a),
  (0x1f100, 0x1f10a)]

/-- Runs of characters that fold to one character: the first, the last, the step, and the image
of the first. -/
def foldRuns : List (ℕ × ℕ × ℕ × ℕ) := [
  (0x41, 0x5a, 1, 0x61), (0xb5, 0xb5, 1, 0x3bc), (0xc0, 0xd6, 1, 0xe0), (0xd8, 0xde, 1, 0xf8),
  (0x100, 0x12e, 2, 0x101), (0x132, 0x136, 2, 0x133), (0x139, 0x147, 2, 0x13a),
  (0x14a, 0x176, 2, 0x14b), (0x178, 0x178, 1, 0xff), (0x179, 0x17d, 2, 0x17a),
  (0x17f, 0x17f, 1, 0x73), (0x181, 0x181, 1, 0x253), (0x182, 0x184, 2, 0x183),
  (0x186, 0x186, 1, 0x254), (0x187, 0x187, 1, 0x188), (0x189, 0x18a, 1, 0x256),
  (0x18b, 0x18b, 1, 0x18c), (0x18e, 0x18e, 1, 0x1dd), (0x18f, 0x18f, 1, 0x259),
  (0x190, 0x190, 1, 0x25b), (0x191, 0x191, 1, 0x192), (0x193, 0x193, 1, 0x260),
  (0x194, 0x194, 1, 0x263), (0x196, 0x196, 1, 0x269), (0x197, 0x197, 1, 0x268),
  (0x198, 0x198, 1, 0x199), (0x19c, 0x19c, 1, 0x26f), (0x19d, 0x19d, 1, 0x272),
  (0x19f, 0x19f, 1, 0x275), (0x1a0, 0x1a4, 2, 0x1a1), (0x1a6, 0x1a6, 1, 0x280),
  (0x1a7, 0x1a7, 1, 0x1a8), (0x1a9, 0x1a9, 1, 0x283), (0x1ac, 0x1ac, 1, 0x1ad),
  (0x1ae, 0x1ae, 1, 0x288), (0x1af, 0x1af, 1, 0x1b0), (0x1b1, 0x1b2, 1, 0x28a),
  (0x1b3, 0x1b5, 2, 0x1b4), (0x1b7, 0x1b7, 1, 0x292), (0x1b8, 0x1b8, 1, 0x1b9),
  (0x1bc, 0x1bc, 1, 0x1bd), (0x1c4, 0x1c4, 1, 0x1c6), (0x1c5, 0x1c5, 1, 0x1c6),
  (0x1c7, 0x1c7, 1, 0x1c9), (0x1c8, 0x1c8, 1, 0x1c9), (0x1ca, 0x1ca, 1, 0x1cc),
  (0x1cb, 0x1db, 2, 0x1cc), (0x1de, 0x1ee, 2, 0x1df), (0x1f1, 0x1f1, 1, 0x1f3),
  (0x1f2, 0x1f4, 2, 0x1f3), (0x1f6, 0x1f6, 1, 0x195), (0x1f7, 0x1f7, 1, 0x1bf),
  (0x1f8, 0x21e, 2, 0x1f9), (0x220, 0x220, 1, 0x19e), (0x222, 0x232, 2, 0x223),
  (0x23a, 0x23a, 1, 0x2c65), (0x23b, 0x23b, 1, 0x23c), (0x23d, 0x23d, 1, 0x19a),
  (0x23e, 0x23e, 1, 0x2c66), (0x241, 0x241, 1, 0x242), (0x243, 0x243, 1, 0x180),
  (0x244, 0x244, 1, 0x289), (0x245, 0x245, 1, 0x28c), (0x246, 0x24e, 2, 0x247),
  (0x345, 0x345, 1, 0x3b9), (0x370, 0x372, 2, 0x371), (0x376, 0x376, 1, 0x377),
  (0x37f, 0x37f, 1, 0x3f3), (0x386, 0x386, 1, 0x3ac), (0x388, 0x38a, 1, 0x3ad),
  (0x38c, 0x38c, 1, 0x3cc), (0x38e, 0x38f, 1, 0x3cd), (0x391, 0x3a1, 1, 0x3b1),
  (0x3a3, 0x3ab, 1, 0x3c3), (0x3c2, 0x3c2, 1, 0x3c3), (0x3cf, 0x3cf, 1, 0x3d7),
  (0x3d0, 0x3d0, 1, 0x3b2), (0x3d1, 0x3d1, 1, 0x3b8), (0x3d5, 0x3d5, 1, 0x3c6),
  (0x3d6, 0x3d6, 1, 0x3c0), (0x3d8, 0x3ee, 2, 0x3d9), (0x3f0, 0x3f0, 1, 0x3ba),
  (0x3f1, 0x3f1, 1, 0x3c1), (0x3f4, 0x3f4, 1, 0x3b8), (0x3f5, 0x3f5, 1, 0x3b5),
  (0x3f7, 0x3f7, 1, 0x3f8), (0x3f9, 0x3f9, 1, 0x3f2), (0x3fa, 0x3fa, 1, 0x3fb),
  (0x3fd, 0x3ff, 1, 0x37b), (0x400, 0x40f, 1, 0x450), (0x410, 0x42f, 1, 0x430),
  (0x460, 0x480, 2, 0x461), (0x48a, 0x4be, 2, 0x48b), (0x4c0, 0x4c0, 1, 0x4cf),
  (0x4c1, 0x4cd, 2, 0x4c2), (0x4d0, 0x52e, 2, 0x4d1), (0x531, 0x556, 1, 0x561),
  (0x10a0, 0x10c5, 1, 0x2d00), (0x10c7, 0x10c7, 1, 0x2d27), (0x10cd, 0x10cd, 1, 0x2d2d),
  (0x13f8, 0x13fd, 1, 0x13f0), (0x1c80, 0x1c80, 1, 0x432), (0x1c81, 0x1c81, 1, 0x434),
  (0x1c82, 0x1c82, 1, 0x43e), (0x1c83, 0x1c84, 1, 0x441), (0x1c85, 0x1c85, 1, 0x442),
  (0x1c86, 0x1c86, 1, 0x44a), (0x1c87, 0x1c87, 1, 0x463), (0x1c88, 0x1c88, 1, 0xa64b),
  (0x1c90, 0x1cba, 1, 0x10d0), (0x1cbd, 0x1cbf, 1, 0x10fd), (0x1e00, 0x1e94, 2, 0x1e01),
  (0x1e9b, 0x1e9b, 1, 0x1e61), (0x1ea0, 0x1efe, 2, 0x1ea1), (0x1f08, 0x1f0f, 1, 0x1f00),
  (0x1f18, 0x1f1d, 1, 0x1f10), (0x1f28, 0x1f2f, 1, 0x1f20), (0x1f38, 0x1f3f, 1, 0x1f30),
  (0x1f48, 0x1f4d, 1, 0x1f40), (0x1f59, 0x1f5f, 2, 0x1f51), (0x1f68, 0x1f6f, 1, 0x1f60),
  (0x1fb8, 0x1fb9, 1, 0x1fb0), (0x1fba, 0x1fbb, 1, 0x1f70), (0x1fbe, 0x1fbe, 1, 0x3b9),
  (0x1fc8, 0x1fcb, 1, 0x1f72), (0x1fd8, 0x1fd9, 1, 0x1fd0), (0x1fda, 0x1fdb, 1, 0x1f76),
  (0x1fe8, 0x1fe9, 1, 0x1fe0), (0x1fea, 0x1feb, 1, 0x1f7a), (0x1fec, 0x1fec, 1, 0x1fe5),
  (0x1ff8, 0x1ff9, 1, 0x1f78), (0x1ffa, 0x1ffb, 1, 0x1f7c), (0x2126, 0x2126, 1, 0x3c9),
  (0x212a, 0x212a, 1, 0x6b), (0x212b, 0x212b, 1, 0xe5), (0x2132, 0x2132, 1, 0x214e),
  (0x2160, 0x216f, 1, 0x2170), (0x2183, 0x2183, 1, 0x2184), (0x24b6, 0x24cf, 1, 0x24d0),
  (0x2c00, 0x2c2f, 1, 0x2c30), (0x2c60, 0x2c60, 1, 0x2c61), (0x2c62, 0x2c62, 1, 0x26b),
  (0x2c63, 0x2c63, 1, 0x1d7d), (0x2c64, 0x2c64, 1, 0x27d), (0x2c67, 0x2c6b, 2, 0x2c68),
  (0x2c6d, 0x2c6d, 1, 0x251), (0x2c6e, 0x2c6e, 1, 0x271), (0x2c6f, 0x2c6f, 1, 0x250),
  (0x2c70, 0x2c70, 1, 0x252), (0x2c72, 0x2c72, 1, 0x2c73), (0x2c75, 0x2c75, 1, 0x2c76),
  (0x2c7e, 0x2c7f, 1, 0x23f), (0x2c80, 0x2ce2, 2, 0x2c81), (0x2ceb, 0x2ced, 2, 0x2cec),
  (0x2cf2, 0x2cf2, 1, 0x2cf3), (0xa640, 0xa66c, 2, 0xa641), (0xa680, 0xa69a, 2, 0xa681),
  (0xa722, 0xa72e, 2, 0xa723), (0xa732, 0xa76e, 2, 0xa733), (0xa779, 0xa77b, 2, 0xa77a),
  (0xa77d, 0xa77d, 1, 0x1d79), (0xa77e, 0xa786, 2, 0xa77f), (0xa78b, 0xa78b, 1, 0xa78c),
  (0xa78d, 0xa78d, 1, 0x265), (0xa790, 0xa792, 2, 0xa791), (0xa796, 0xa7a8, 2, 0xa797),
  (0xa7aa, 0xa7aa, 1, 0x266), (0xa7ab, 0xa7ab, 1, 0x25c), (0xa7ac, 0xa7ac, 1, 0x261),
  (0xa7ad, 0xa7ad, 1, 0x26c), (0xa7ae, 0xa7ae, 1, 0x26a), (0xa7b0, 0xa7b0, 1, 0x29e),
  (0xa7b1, 0xa7b1, 1, 0x287), (0xa7b2, 0xa7b2, 1, 0x29d), (0xa7b3, 0xa7b3, 1, 0xab53),
  (0xa7b4, 0xa7c2, 2, 0xa7b5), (0xa7c4, 0xa7c4, 1, 0xa794), (0xa7c5, 0xa7c5, 1, 0x282),
  (0xa7c6, 0xa7c6, 1, 0x1d8e), (0xa7c7, 0xa7c9, 2, 0xa7c8), (0xa7d0, 0xa7d0, 1, 0xa7d1),
  (0xa7d6, 0xa7d8, 2, 0xa7d7), (0xa7f5, 0xa7f5, 1, 0xa7f6), (0xab70, 0xabbf, 1, 0x13a0),
  (0xff21, 0xff3a, 1, 0xff41), (0x10400, 0x10427, 1, 0x10428), (0x104b0, 0x104d3, 1, 0x104d8),
  (0x10570, 0x1057a, 1, 0x10597), (0x1057c, 0x1058a, 1, 0x105a3), (0x1058c, 0x10592, 1, 0x105b3),
  (0x10594, 0x10595, 1, 0x105bb), (0x10c80, 0x10cb2, 1, 0x10cc0), (0x118a0, 0x118bf, 1, 0x118c0),
  (0x16e40, 0x16e5f, 1, 0x16e60), (0x1e900, 0x1e921, 1, 0x1e922)]

def foldExpansions : List (ℕ × List ℕ) := [
  (0xdf, [0x73, 0x73]), (0x130, [0x69, 0x307]), (0x149, [0x2bc, 0x6e]), (0x1f0, [0x6a, 0x30c]),
  (0x390, [0x3b9, 0x308, 0x301]), (0x3b0, [0x3c5, 0x308, 0x301]), (0x587, [0x565, 0x582]),
  (0x1e96, [0x68, 0x331]), (0x1e97, [0x74, 0x308]), (0x1e98, [0x77, 0x30a]),
  (0x1e99, [0x79, 0x30a]), (0x1e9a, [0x61, 0x2be]), (0x1e9e, [0x73, 0x73]),
  (0x1f50, [0x3c5, 0x313]), (0x1f52, [0x3c5, 0x313, 0x300]), (0x1f54, [0x3c5, 0x313, 0x301]),
  (0x1f56, [0x3c5, 0x313, 0x342]), (0x1f80, [0x1f00, 0x3b9]), (0x1f81, [0x1f01, 0x3b9]),
  (0x1f82, [0x1f02, 0x3b9]), (0x1f83, [0x1f03, 0x3b9]), (0x1f84, [0x1f04, 0x3b9]),
  (0x1f85, [0x1f05, 0x3b9]), (0x1f86, [0x1f06, 0x3b9]), (0x1f87, [0x1f07, 0x3b9]),
  (0x1f88, [0x1f00, 0x3b9]), (0x1f89, [0x1f01, 0x3b9]), (0x1f8a, [0x1f02, 0x3b9]),
  (0x1f8b, [0x1f03, 0x3b9]), (0x1f8c, [0x1f04, 0x3b9]), (0x1f8d, [0x1f05, 0x3b9]),
  (0x1f8e, [0x1f06, 0x3b9]), (0x1f8f, [0x1f07, 0x3b9]), (0x1f90, [0x1f20, 0x3b9]),
  (0x1f91, [0x1f21, 0x3b9]), (0x1f92, [0x1f22, 0x3b9]), (0x1f93, [0x1f23, 0x3b9]),
  (0x1f94, [0x1f24, 0x3b9]), (0x1f95, [0x1f25, 0x3b9]), (0x1f96, [0x1f26, 0x3b9]),
  (0x1f97, [0x1f27, 0x3b9]), (0x1f98, [0x1f20, 0x3b9]), (0x1f99, [0x1f21, 0x3b9]),
  (0x1f9a, [0x1f22, 0x3b9]), (0x1f9b, [0x1f23, 0x3b9]), (0x1f9c, [0x1f24, 0x3b9]),
  (0x1f9d, [0x1f25, 0x3b9]), (0x1f9e, [0x1f26, 0x3b9]), (0x1f9f, [0x1f27, 0x3b9]),
  (0x1fa0, [0x1f60, 0x3b9]), (0x1fa1, [0x1f61, 0x3b9]), (0x1fa2, [0x1f62, 0x3b9]),
  (0x1fa3, [0x1f63, 0x3b9]), (0x1fa4, [0x1f64, 0x3b9]), (0x1fa5, [0x1f65, 0x3b9]),
  (0x1fa6, [0x1f66, 0x3b9]), (0x1fa7, [0x1f67, 0x3b9]), (0x1fa8, [0x1f60, 0x3b9]),
  (0x1fa9, [0x1f61, 0x3b9]), (0x1faa, [0x1f62, 0x3b9]), (0x1fab, [0x1f63, 0x3b9]),
  (0x1fac, [0x1f64, 0x3b9]), (0x1fad, [0x1f65, 0x3b9]), (0x1fae, [0x1f66, 0x3b9]),
  (0x1faf, [0x1f67, 0x3b9]), (0x1fb2, [0x1f70, 0x3b9]), (0x1fb3, [0x3b1, 0x3b9]),
  (0x1fb4, [0x3ac, 0x3b9]), (0x1fb6, [0x3b1, 0x342]), (0x1fb7, [0x3b1, 0x342, 0x3b9]),
  (0x1fbc, [0x3b1, 0x3b9]), (0x1fc2, [0x1f74, 0x3b9]), (0x1fc3, [0x3b7, 0x3b9]),
  (0x1fc4, [0x3ae, 0x3b9]), (0x1fc6, [0x3b7, 0x342]), (0x1fc7, [0x3b7, 0x342, 0x3b9]),
  (0x1fcc, [0x3b7, 0x3b9]), (0x1fd2, [0x3b9, 0x308, 0x300]), (0x1fd3, [0x3b9, 0x308, 0x301]),
  (0x1fd6, [0x3b9, 0x342]), (0x1fd7, [0x3b9, 0x308, 0x342]), (0x1fe2, [0x3c5, 0x308, 0x300]),
  (0x1fe3, [0x3c5, 0x308, 0x301]), (0x1fe4, [0x3c1, 0x313]), (0x1fe6, [0x3c5, 0x342]),
  (0x1fe7, [0x3c5, 0x308, 0x342]), (0x1ff2, [0x1f7c, 0x3b9]), (0x1ff3, [0x3c9, 0x3b9]),
  (0x1ff4, [0x3ce, 0x3b9]), (0x1ff6, [0x3c9, 0x342]), (0x1ff7, [0x3c9, 0x342, 0x3b9]),
  (0x1ffc, [0x3c9, 0x3b9]), (0xfb00, [0x66, 0x66]), (0xfb01, [0x66, 0x69]),
  (0xfb02, [0x66, 0x6c]), (0xfb03, [0x66, 0x66, 0x69]), (0xfb04, [0x66, 0x66, 0x6c]),
  (0xfb05, [0x73, 0x74]), (0xfb06, [0x73, 0x74]), (0xfb13, [0x574, 0x576]),
  (0xfb14, [0x574, 0x565]), (0xfb15, [0x574, 0x56b]), (0xfb16, [0x57e, 0x576]),
  (0xfb17, [0x574, 0x56d])]

def decimal? (c : Char) : Option ℕ :=
  (decimalRuns.find? (fun r => r ≤ c.toNat && c.toNat < r + 10)).map (fun r => c.toNat - r)

/-- `str.isdigit` for one character: the decimals, and those such as superscripts that have a
digit value and no place in a decimal numeral. -/
def isDigitChar (c : Char) : Bool :=
  (decimal? c).isSome || digitRuns.any (fun r => r.1 ≤ c.toNat && c.toNat ≤ r.2)

def foldChar (c : Char) : List Char :=
  let n := c.toNat
  if n < 0x80 then
    if 0x41 ≤ n && n ≤ 0x5a then [Char.ofNat (n + 0x20)] else [c]
  else
    match foldRuns.find? (fun r => r.1 ≤ n && n ≤ r.2.1 && (n - r.1) % r.2.2.1 == 0) with
    | some r => [Char.ofNat (r.2.2.2 + (n - r.1))]
    | none =>
      match foldExpansions.find? (fun e => e.1 == n) with
      | some e => e.2.map Char.ofNat
      | none => [c]

def stripBy (p : Char → Bool) (cs : List Char) : List Char :=
  ((cs.dropWhile p).reverse.dropWhile p).reverse

/-- `s.strip()`. -/
def strip (s : String) : String := .ofList (stripBy isSpace s.toList)

/-- `s.strip(chars)`. -/
def stripChars (chars s : String) : String := .ofList (stripBy (fun c => chars.toList.contains c) s.toList)

/-- The scan behind `s.split()`, `word` being the reversed word under way. -/
def splitFrom (word : List Char) : List Char → List (List Char)
  | [] => if word.isEmpty then [] else [word.reverse]
  | c :: cs =>
    if isSpace c then
      if word.isEmpty then splitFrom [] cs else word.reverse :: splitFrom [] cs
    else splitFrom (c :: word) cs

/-- `s.split()`. -/
def split (s : String) : List String := (splitFrom [] s.toList).map String.ofList

def splitOnChar (sep : Char) (word : List Char) : List Char → List (List Char)
  | [] => [word.reverse]
  | c :: cs => if c = sep then word.reverse :: splitOnChar sep [] cs
    else splitOnChar sep (c :: word) cs

/-- `s.split(sep)` for a separator of one character. -/
def splitOn (sep : Char) (s : String) : List String :=
  (splitOnChar sep [] s.toList).map String.ofList

/-- `sep.join(parts)`. -/
def join (sep : String) (parts : List String) : String :=
  .ofList (List.intercalate sep.toList (parts.map String.toList))

/-- `s.replace(c, r)` for one character. -/
def replaceChar (c : Char) (r s : String) : String :=
  .ofList (s.toList.flatMap (fun d => if d = c then r.toList else [d]))

/-- `s.casefold()`. -/
def casefold (s : String) : String := .ofList (s.toList.flatMap foldChar)

/-- `s.isdigit()`. -/
def isdigit (s : String) : Bool := !s.toList.isEmpty && s.toList.all isDigitChar

def blank (s : String) : Bool := s.toList.all isSpace

def textLE (a b : String) : Bool := decide (a.toList.map Char.toNat ≤ b.toList.map Char.toNat)

/-- `sorted` on a list of text. -/
def sorted (l : List String) : List String := l.insertionSort (fun a b => textLE a b = true)

/-! ## Integers and text -/

/-- `sys.get_int_max_str_digits()`. -/
def maxStrDigits : ℕ := 4300

def literalDigits : List Char → Option (List ℕ)
  | [] => none
  | [c] => (decimal? c).map (fun d => [d])
  | c :: '_' :: cs => do
    let d ← decimal? c
    let ds ← literalDigits cs
    return d :: ds
  | c :: cs => do
    let d ← decimal? c
    let ds ← literalDigits cs
    return d :: ds

def ofDigits (ds : List ℕ) : ℕ := ds.foldl (fun n d => 10 * n + d) 0

def signOf : List Char → Bool × List Char
  | '-' :: cs => (true, cs)
  | '+' :: cs => (false, cs)
  | cs => (false, cs)

variable {δ : Type}

/-- `int(s)` for text: a literal that is not one raises, and so does one of too many digits. -/
def intOfText (s : String) : Except (Exc δ) ℤ :=
  let body := signOf (stripBy isSpace s.toList)
  match literalDigits body.2 with
  | none => .error .valueError
  | some ds =>
    if ds.length ≤ maxStrDigits then
      .ok (if body.1 then -(ofDigits ds : ℤ) else (ofDigits ds : ℤ))
    else .error .valueError

def printable (n : ℕ) : Bool := (Nat.toDigits 10 n).length ≤ maxStrDigits

/-- `str(n)`, which raises for a number of too many digits. -/
def textOfNat (n : ℕ) : Except (Exc δ) String :=
  if printable n then .ok (.ofList (Nat.toDigits 10 n)) else .error .valueError

theorem returns_textOfNat (n : ℕ) :
    Returns (textOfNat n : Except (Exc δ) String) ↔ printable n = true := by
  unfold textOfNat
  split <;> simp_all

/-! ## Digit strings -/

theorem decimal?_isDigitChar {c : Char} {d : ℕ} (h : decimal? c = some d) : isDigitChar c = true := by
  simp [isDigitChar, h]

theorem isSpace_codes {c : Char} (h : isSpace c = true) : c.toNat ∈
    [0x9, 0xa, 0xb, 0xc, 0xd, 0x1c, 0x1d, 0x1e, 0x1f, 0x20, 0x85, 0xa0, 0x1680, 0x2000, 0x2001,
      0x2002, 0x2003, 0x2004, 0x2005, 0x2006, 0x2007, 0x2008, 0x2009, 0x200a, 0x2028, 0x2029,
      0x202f, 0x205f, 0x3000] := by
  simp only [isSpace, Bool.or_eq_true, Bool.and_eq_true, decide_eq_true_eq, beq_iff_eq] at h
  simp only [List.mem_cons, List.not_mem_nil, or_false]
  omega

def isDigitCode (n : ℕ) : Bool :=
  (decimalRuns.any (fun r => r ≤ n && n < r + 10)) ||
    digitRuns.any (fun r => r.1 ≤ n && n ≤ r.2)

theorem isDigitChar_eq (c : Char) : isDigitChar c = isDigitCode c.toNat := by
  simp only [isDigitChar, isDigitCode, decimal?, Option.isSome_map, List.isSome_find?]

theorem not_isSpace_of_isDigitChar {c : Char} (h : isDigitChar c = true) : isSpace c = false := by
  rw [Bool.eq_false_iff]
  intro hs
  rw [isDigitChar_eq] at h
  have hall : ∀ n ∈ [0x9, 0xa, 0xb, 0xc, 0xd, 0x1c, 0x1d, 0x1e, 0x1f, 0x20, 0x85, 0xa0, 0x1680,
      0x2000, 0x2001, 0x2002, 0x2003, 0x2004, 0x2005, 0x2006, 0x2007, 0x2008, 0x2009, 0x200a,
      0x2028, 0x2029, 0x202f, 0x205f, 0x3000], isDigitCode n = false := by decide
  rw [hall _ (isSpace_codes hs)] at h
  cases h

theorem stripBy_eq_self {p : Char → Bool} {cs : List Char} (h : ∀ c ∈ cs, p c = false) :
    stripBy p cs = cs := by
  have hd : ∀ l : List Char, (∀ c ∈ l, p c = false) → l.dropWhile p = l := by
    intro l hl
    cases l with
    | nil => rfl
    | cons c l => rw [List.dropWhile_cons_of_neg (by simp [hl c (by simp)])]
  rw [stripBy, hd cs h, hd cs.reverse (fun c hc => h c (List.mem_reverse.1 hc)),
    List.reverse_reverse]

theorem literalDigits_eq_mapM {cs : List Char} (hne : cs ≠ []) (h : ∀ c ∈ cs, c ≠ '_') :
    literalDigits cs = cs.mapM decimal? := by
  induction cs with
  | nil => exact absurd rfl hne
  | cons c cs ih =>
    cases cs with
    | nil =>
      rw [literalDigits, List.mapM_cons, List.mapM_nil]
      cases decimal? c <;> rfl
    | cons d ds =>
      have hd : d ≠ '_' := h d (by simp)
      have hs : literalDigits (c :: d :: ds) = (do
          let e ← decimal? c
          let es ← literalDigits (d :: ds)
          return e :: es) := by
        rw [literalDigits]
        · rintro ⟨⟩
        · intro es hes
          exact hd (List.cons.inj hes).1
      rw [hs, ih (by simp) (fun e he => h e (by simp [he]))]
      exact List.mapM_cons.symm

theorem intOfText_of_isdigit {s : String} (h : isdigit s = true) :
    (intOfText s : Except (Exc δ) ℤ) = match s.toList.mapM decimal? with
      | none => .error .valueError
      | some ds => if ds.length ≤ maxStrDigits then .ok (ofDigits ds : ℤ)
        else .error .valueError := by
  simp only [isdigit, Bool.and_eq_true, Bool.not_eq_true', List.isEmpty_eq_false_iff,
    List.all_eq_true] at h
  obtain ⟨hne, hall⟩ := h
  have hstrip : stripBy isSpace s.toList = s.toList :=
    stripBy_eq_self (fun c hc => not_isSpace_of_isDigitChar (hall c hc))
  have hsign : signOf s.toList = (false, s.toList) := by
    have hminus : isDigitChar '-' = false := by decide
    have hplus : isDigitChar '+' = false := by decide
    unfold signOf
    split
    · rename_i cs hs
      rw [hall '-' (by simp [hs])] at hminus
      cases hminus
    · rename_i cs hs
      rw [hall '+' (by simp [hs])] at hplus
      cases hplus
    · rfl
  have hlow : ∀ c ∈ s.toList, c ≠ '_' := by
    intro c hc hu
    subst hu
    have hu : isDigitChar '_' = false := by decide
    rw [hall _ hc] at hu
    cases hu
  rw [intOfText, hstrip, hsign]
  simp only [literalDigits_eq_mapM hne hlow]
  cases s.toList.mapM decimal? <;> simp

end IeltsHub.PyText
