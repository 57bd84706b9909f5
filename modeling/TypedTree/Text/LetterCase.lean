import TypedTree.Text.Letter

/-!
Upper and lower case of whole texts. A character may become several (`ß` becomes `SS`), and a capital
sigma at the end of a word becomes the final form of the small letter.
-/

namespace TypedTree.Text

/-- One row of a case table: every `step`-th code point from `first` to `last`. A single target is
that of `first`, and the others lie as far behind it as their sources. -/
structure CaseRow where
  first : Nat
  last : Nat
  step : Nat
  target : List Nat

namespace CaseRow

/-- A character on its own. -/
def one (source : Nat) (target : List Nat) : CaseRow := ⟨source, source, 1, target⟩

/-- Neighbours that become neighbours. -/
def run (first last target : Nat) : CaseRow := ⟨first, last, 1, [target]⟩

/-- Small and capital letters in turn. -/
def everySecond (first last target : Nat) : CaseRow := ⟨first, last, 2, [target]⟩

def image? (row : CaseRow) (c : Char) : Option (List Char) :=
  if row.first ≤ c.toNat ∧ c.toNat ≤ row.last ∧ (c.toNat - row.first) % row.step = 0 then
    match row.target with
    | [target] => some [Char.ofNat (target + (c.toNat - row.first))]
    | targets => some (targets.map Char.ofNat)
  else none

/-- Whether a character of the row may become the one with this code point. -/
def reaches (row : CaseRow) (code : Nat) : Bool :=
  match row.target with
  | [target] => target ≤ code && code ≤ target + (row.last - row.first)
  | targets => targets.contains code

theorem reaches_of_image? {row : CaseRow} {c target : Char} {image : List Char} (found : row.image? c = some image)
    (member : target ∈ image) (positive : target.toNat ≠ 0) : row.reaches target.toNat = true := by
  -- A code point that no character has makes the null character.
  have code {n : Nat} (same : target = Char.ofNat n) : target.toNat = n := by
    rw [same, Char.ofNat] at positive ⊢
    by_cases valid : n.isValidChar
    · rw [dif_pos valid]
      rfl
    · exact absurd (congrArg Char.toNat (dif_neg valid)) positive
  rw [image?] at found
  split at found
  next inside =>
    rw [reaches]
    split at found
    next first single =>
      cases found
      have same := code (List.mem_singleton.mp member)
      simp only [Bool.and_eq_true, decide_eq_true_eq]
      omega
    next targets several =>
      cases found
      obtain ⟨n, listed, rfl⟩ := List.mem_map.mp member
      rw [code rfl]
      exact List.contains_iff_mem.mpr listed
  next => cases found

end CaseRow

private def upperRows : List CaseRow := [
  .one 0xb5 [0x39c], .one 0xdf [0x53, 0x53], .run 0xe0 0xf6 0xc0, .run 0xf8 0xfe 0xd8, .one 0xff [0x178],
  .everySecond 0x101 0x12f 0x100, .one 0x131 [0x49], .everySecond 0x133 0x137 0x132,
  .everySecond 0x13a 0x148 0x139, .one 0x149 [0x2bc, 0x4e], .everySecond 0x14b 0x177 0x14a,
  .everySecond 0x17a 0x17e 0x179, .one 0x17f [0x53], .one 0x180 [0x243], .everySecond 0x183 0x185 0x182,
  .one 0x188 [0x187], .one 0x18c [0x18b], .one 0x192 [0x191], .one 0x195 [0x1f6], .one 0x199 [0x198],
  .one 0x19a [0x23d], .one 0x19b [0xa7dc], .one 0x19e [0x220], .everySecond 0x1a1 0x1a5 0x1a0, .one 0x1a8 [0x1a7],
  .one 0x1ad [0x1ac], .one 0x1b0 [0x1af], .everySecond 0x1b4 0x1b6 0x1b3, .one 0x1b9 [0x1b8], .one 0x1bd [0x1bc],
  .one 0x1bf [0x1f7], .one 0x1c5 [0x1c4], .one 0x1c6 [0x1c4], .one 0x1c8 [0x1c7], .one 0x1c9 [0x1c7],
  .one 0x1cb [0x1ca], .one 0x1cc [0x1ca], .everySecond 0x1ce 0x1dc 0x1cd, .one 0x1dd [0x18e],
  .everySecond 0x1df 0x1ef 0x1de, .one 0x1f0 [0x4a, 0x30c], .one 0x1f2 [0x1f1], .one 0x1f3 [0x1f1],
  .one 0x1f5 [0x1f4], .everySecond 0x1f9 0x21f 0x1f8, .everySecond 0x223 0x233 0x222, .one 0x23c [0x23b],
  .run 0x23f 0x240 0x2c7e, .one 0x242 [0x241], .everySecond 0x247 0x24f 0x246, .one 0x250 [0x2c6f],
  .one 0x251 [0x2c6d], .one 0x252 [0x2c70], .one 0x253 [0x181], .one 0x254 [0x186], .run 0x256 0x257 0x189,
  .one 0x259 [0x18f], .one 0x25b [0x190], .one 0x25c [0xa7ab], .one 0x260 [0x193], .one 0x261 [0xa7ac],
  .one 0x263 [0x194], .one 0x264 [0xa7cb], .one 0x265 [0xa78d], .one 0x266 [0xa7aa], .one 0x268 [0x197],
  .one 0x269 [0x196], .one 0x26a [0xa7ae], .one 0x26b [0x2c62], .one 0x26c [0xa7ad], .one 0x26f [0x19c],
  .one 0x271 [0x2c6e], .one 0x272 [0x19d], .one 0x275 [0x19f], .one 0x27d [0x2c64], .one 0x280 [0x1a6],
  .one 0x282 [0xa7c5], .one 0x283 [0x1a9], .one 0x287 [0xa7b1], .one 0x288 [0x1ae], .one 0x289 [0x244],
  .run 0x28a 0x28b 0x1b1, .one 0x28c [0x245], .one 0x292 [0x1b7], .one 0x29d [0xa7b2], .one 0x29e [0xa7b0],
  .one 0x345 [0x399], .everySecond 0x371 0x373 0x370, .one 0x377 [0x376], .run 0x37b 0x37d 0x3fd,
  .one 0x390 [0x399, 0x308, 0x301], .one 0x3ac [0x386], .run 0x3ad 0x3af 0x388, .one 0x3b0 [0x3a5, 0x308, 0x301],
  .run 0x3b1 0x3c1 0x391, .one 0x3c2 [0x3a3], .run 0x3c3 0x3cb 0x3a3, .one 0x3cc [0x38c], .run 0x3cd 0x3ce 0x38e,
  .one 0x3d0 [0x392], .one 0x3d1 [0x398], .one 0x3d5 [0x3a6], .one 0x3d6 [0x3a0], .one 0x3d7 [0x3cf],
  .everySecond 0x3d9 0x3ef 0x3d8, .one 0x3f0 [0x39a], .one 0x3f1 [0x3a1], .one 0x3f2 [0x3f9], .one 0x3f3 [0x37f],
  .one 0x3f5 [0x395], .one 0x3f8 [0x3f7], .one 0x3fb [0x3fa], .run 0x430 0x44f 0x410, .run 0x450 0x45f 0x400,
  .everySecond 0x461 0x481 0x460, .everySecond 0x48b 0x4bf 0x48a, .everySecond 0x4c2 0x4ce 0x4c1,
  .one 0x4cf [0x4c0], .everySecond 0x4d1 0x52f 0x4d0, .run 0x561 0x586 0x531, .one 0x587 [0x535, 0x552],
  .run 0x10d0 0x10fa 0x1c90, .run 0x10fd 0x10ff 0x1cbd, .run 0x13f8 0x13fd 0x13f0, .one 0x1c80 [0x412],
  .one 0x1c81 [0x414], .one 0x1c82 [0x41e], .run 0x1c83 0x1c84 0x421, .one 0x1c85 [0x422], .one 0x1c86 [0x42a],
  .one 0x1c87 [0x462], .one 0x1c88 [0xa64a], .one 0x1c8a [0x1c89], .one 0x1d79 [0xa77d], .one 0x1d7d [0x2c63],
  .one 0x1d8e [0xa7c6], .everySecond 0x1e01 0x1e95 0x1e00, .one 0x1e96 [0x48, 0x331], .one 0x1e97 [0x54, 0x308],
  .one 0x1e98 [0x57, 0x30a], .one 0x1e99 [0x59, 0x30a], .one 0x1e9a [0x41, 0x2be], .one 0x1e9b [0x1e60],
  .everySecond 0x1ea1 0x1eff 0x1ea0, .run 0x1f00 0x1f07 0x1f08, .run 0x1f10 0x1f15 0x1f18,
  .run 0x1f20 0x1f27 0x1f28, .run 0x1f30 0x1f37 0x1f38, .run 0x1f40 0x1f45 0x1f48, .one 0x1f50 [0x3a5, 0x313],
  .everySecond 0x1f51 0x1f57 0x1f59, .one 0x1f52 [0x3a5, 0x313, 0x300], .one 0x1f54 [0x3a5, 0x313, 0x301],
  .one 0x1f56 [0x3a5, 0x313, 0x342], .run 0x1f60 0x1f67 0x1f68, .run 0x1f70 0x1f71 0x1fba,
  .run 0x1f72 0x1f75 0x1fc8, .run 0x1f76 0x1f77 0x1fda, .run 0x1f78 0x1f79 0x1ff8, .run 0x1f7a 0x1f7b 0x1fea,
  .run 0x1f7c 0x1f7d 0x1ffa, .one 0x1f80 [0x1f08, 0x399], .one 0x1f81 [0x1f09, 0x399], .one 0x1f82 [0x1f0a, 0x399],
  .one 0x1f83 [0x1f0b, 0x399], .one 0x1f84 [0x1f0c, 0x399], .one 0x1f85 [0x1f0d, 0x399],
  .one 0x1f86 [0x1f0e, 0x399], .one 0x1f87 [0x1f0f, 0x399], .one 0x1f88 [0x1f08, 0x399],
  .one 0x1f89 [0x1f09, 0x399], .one 0x1f8a [0x1f0a, 0x399], .one 0x1f8b [0x1f0b, 0x399],
  .one 0x1f8c [0x1f0c, 0x399], .one 0x1f8d [0x1f0d, 0x399], .one 0x1f8e [0x1f0e, 0x399],
  .one 0x1f8f [0x1f0f, 0x399], .one 0x1f90 [0x1f28, 0x399], .one 0x1f91 [0x1f29, 0x399],
  .one 0x1f92 [0x1f2a, 0x399], .one 0x1f93 [0x1f2b, 0x399], .one 0x1f94 [0x1f2c, 0x399],
  .one 0x1f95 [0x1f2d, 0x399], .one 0x1f96 [0x1f2e, 0x399], .one 0x1f97 [0x1f2f, 0x399],
  .one 0x1f98 [0x1f28, 0x399], .one 0x1f99 [0x1f29, 0x399], .one 0x1f9a [0x1f2a, 0x399],
  .one 0x1f9b [0x1f2b, 0x399], .one 0x1f9c [0x1f2c, 0x399], .one 0x1f9d [0x1f2d, 0x399],
  .one 0x1f9e [0x1f2e, 0x399], .one 0x1f9f [0x1f2f, 0x399], .one 0x1fa0 [0x1f68, 0x399],
  .one 0x1fa1 [0x1f69, 0x399], .one 0x1fa2 [0x1f6a, 0x399], .one 0x1fa3 [0x1f6b, 0x399],
  .one 0x1fa4 [0x1f6c, 0x399], .one 0x1fa5 [0x1f6d, 0x399], .one 0x1fa6 [0x1f6e, 0x399],
  .one 0x1fa7 [0x1f6f, 0x399], .one 0x1fa8 [0x1f68, 0x399], .one 0x1fa9 [0x1f69, 0x399],
  .one 0x1faa [0x1f6a, 0x399], .one 0x1fab [0x1f6b, 0x399], .one 0x1fac [0x1f6c, 0x399],
  .one 0x1fad [0x1f6d, 0x399], .one 0x1fae [0x1f6e, 0x399], .one 0x1faf [0x1f6f, 0x399], .run 0x1fb0 0x1fb1 0x1fb8,
  .one 0x1fb2 [0x1fba, 0x399], .one 0x1fb3 [0x391, 0x399], .one 0x1fb4 [0x386, 0x399], .one 0x1fb6 [0x391, 0x342],
  .one 0x1fb7 [0x391, 0x342, 0x399], .one 0x1fbc [0x391, 0x399], .one 0x1fbe [0x399], .one 0x1fc2 [0x1fca, 0x399],
  .one 0x1fc3 [0x397, 0x399], .one 0x1fc4 [0x389, 0x399], .one 0x1fc6 [0x397, 0x342],
  .one 0x1fc7 [0x397, 0x342, 0x399], .one 0x1fcc [0x397, 0x399], .run 0x1fd0 0x1fd1 0x1fd8,
  .one 0x1fd2 [0x399, 0x308, 0x300], .one 0x1fd3 [0x399, 0x308, 0x301], .one 0x1fd6 [0x399, 0x342],
  .one 0x1fd7 [0x399, 0x308, 0x342], .run 0x1fe0 0x1fe1 0x1fe8, .one 0x1fe2 [0x3a5, 0x308, 0x300],
  .one 0x1fe3 [0x3a5, 0x308, 0x301], .one 0x1fe4 [0x3a1, 0x313], .one 0x1fe5 [0x1fec], .one 0x1fe6 [0x3a5, 0x342],
  .one 0x1fe7 [0x3a5, 0x308, 0x342], .one 0x1ff2 [0x1ffa, 0x399], .one 0x1ff3 [0x3a9, 0x399],
  .one 0x1ff4 [0x38f, 0x399], .one 0x1ff6 [0x3a9, 0x342], .one 0x1ff7 [0x3a9, 0x342, 0x399],
  .one 0x1ffc [0x3a9, 0x399], .one 0x214e [0x2132], .run 0x2170 0x217f 0x2160, .one 0x2184 [0x2183],
  .run 0x24d0 0x24e9 0x24b6, .run 0x2c30 0x2c5f 0x2c00, .one 0x2c61 [0x2c60], .one 0x2c65 [0x23a],
  .one 0x2c66 [0x23e], .everySecond 0x2c68 0x2c6c 0x2c67, .one 0x2c73 [0x2c72], .one 0x2c76 [0x2c75],
  .everySecond 0x2c81 0x2ce3 0x2c80, .everySecond 0x2cec 0x2cee 0x2ceb, .one 0x2cf3 [0x2cf2],
  .run 0x2d00 0x2d25 0x10a0, .one 0x2d27 [0x10c7], .one 0x2d2d [0x10cd], .everySecond 0xa641 0xa66d 0xa640,
  .everySecond 0xa681 0xa69b 0xa680, .everySecond 0xa723 0xa72f 0xa722, .everySecond 0xa733 0xa76f 0xa732,
  .everySecond 0xa77a 0xa77c 0xa779, .everySecond 0xa77f 0xa787 0xa77e, .one 0xa78c [0xa78b],
  .everySecond 0xa791 0xa793 0xa790, .one 0xa794 [0xa7c4], .everySecond 0xa797 0xa7a9 0xa796,
  .everySecond 0xa7b5 0xa7c3 0xa7b4, .everySecond 0xa7c8 0xa7ca 0xa7c7, .everySecond 0xa7cd 0xa7db 0xa7cc,
  .one 0xa7f6 [0xa7f5], .one 0xab53 [0xa7b3], .run 0xab70 0xabbf 0x13a0, .one 0xfb00 [0x46, 0x46],
  .one 0xfb01 [0x46, 0x49], .one 0xfb02 [0x46, 0x4c], .one 0xfb03 [0x46, 0x46, 0x49],
  .one 0xfb04 [0x46, 0x46, 0x4c], .one 0xfb05 [0x53, 0x54], .one 0xfb06 [0x53, 0x54], .one 0xfb13 [0x544, 0x546],
  .one 0xfb14 [0x544, 0x535], .one 0xfb15 [0x544, 0x53b], .one 0xfb16 [0x54e, 0x546], .one 0xfb17 [0x544, 0x53d],
  .run 0xff41 0xff5a 0xff21, .run 0x10428 0x1044f 0x10400, .run 0x104d8 0x104fb 0x104b0,
  .run 0x10597 0x105a1 0x10570, .run 0x105a3 0x105b1 0x1057c, .run 0x105b3 0x105b9 0x1058c,
  .run 0x105bb 0x105bc 0x10594, .run 0x10cc0 0x10cf2 0x10c80, .run 0x10d70 0x10d85 0x10d50,
  .run 0x118c0 0x118df 0x118a0, .run 0x16e60 0x16e7f 0x16e40, .run 0x16ebb 0x16ed3 0x16ea0,
  .run 0x1e922 0x1e943 0x1e900]

private def lowerRows : List CaseRow := [
  .run 0xc0 0xd6 0xe0, .run 0xd8 0xde 0xf8, .everySecond 0x100 0x12e 0x101, .one 0x130 [0x69, 0x307],
  .everySecond 0x132 0x136 0x133, .everySecond 0x139 0x147 0x13a, .everySecond 0x14a 0x176 0x14b,
  .one 0x178 [0xff], .everySecond 0x179 0x17d 0x17a, .one 0x181 [0x253], .everySecond 0x182 0x184 0x183,
  .one 0x186 [0x254], .one 0x187 [0x188], .run 0x189 0x18a 0x256, .one 0x18b [0x18c], .one 0x18e [0x1dd],
  .one 0x18f [0x259], .one 0x190 [0x25b], .one 0x191 [0x192], .one 0x193 [0x260], .one 0x194 [0x263],
  .one 0x196 [0x269], .one 0x197 [0x268], .one 0x198 [0x199], .one 0x19c [0x26f], .one 0x19d [0x272],
  .one 0x19f [0x275], .everySecond 0x1a0 0x1a4 0x1a1, .one 0x1a6 [0x280], .one 0x1a7 [0x1a8], .one 0x1a9 [0x283],
  .one 0x1ac [0x1ad], .one 0x1ae [0x288], .one 0x1af [0x1b0], .run 0x1b1 0x1b2 0x28a,
  .everySecond 0x1b3 0x1b5 0x1b4, .one 0x1b7 [0x292], .one 0x1b8 [0x1b9], .one 0x1bc [0x1bd], .one 0x1c4 [0x1c6],
  .one 0x1c5 [0x1c6], .one 0x1c7 [0x1c9], .one 0x1c8 [0x1c9], .one 0x1ca [0x1cc], .everySecond 0x1cb 0x1db 0x1cc,
  .everySecond 0x1de 0x1ee 0x1df, .one 0x1f1 [0x1f3], .everySecond 0x1f2 0x1f4 0x1f3, .one 0x1f6 [0x195],
  .one 0x1f7 [0x1bf], .everySecond 0x1f8 0x21e 0x1f9, .one 0x220 [0x19e], .everySecond 0x222 0x232 0x223,
  .one 0x23a [0x2c65], .one 0x23b [0x23c], .one 0x23d [0x19a], .one 0x23e [0x2c66], .one 0x241 [0x242],
  .one 0x243 [0x180], .one 0x244 [0x289], .one 0x245 [0x28c], .everySecond 0x246 0x24e 0x247,
  .everySecond 0x370 0x372 0x371, .one 0x376 [0x377], .one 0x37f [0x3f3], .one 0x386 [0x3ac],
  .run 0x388 0x38a 0x3ad, .one 0x38c [0x3cc], .run 0x38e 0x38f 0x3cd, .run 0x391 0x3a1 0x3b1,
  .run 0x3a3 0x3ab 0x3c3, .one 0x3cf [0x3d7], .everySecond 0x3d8 0x3ee 0x3d9, .one 0x3f4 [0x3b8],
  .one 0x3f7 [0x3f8], .one 0x3f9 [0x3f2], .one 0x3fa [0x3fb], .run 0x3fd 0x3ff 0x37b, .run 0x400 0x40f 0x450,
  .run 0x410 0x42f 0x430, .everySecond 0x460 0x480 0x461, .everySecond 0x48a 0x4be 0x48b, .one 0x4c0 [0x4cf],
  .everySecond 0x4c1 0x4cd 0x4c2, .everySecond 0x4d0 0x52e 0x4d1, .run 0x531 0x556 0x561,
  .run 0x10a0 0x10c5 0x2d00, .one 0x10c7 [0x2d27], .one 0x10cd [0x2d2d], .run 0x13a0 0x13ef 0xab70,
  .run 0x13f0 0x13f5 0x13f8, .one 0x1c89 [0x1c8a], .run 0x1c90 0x1cba 0x10d0, .run 0x1cbd 0x1cbf 0x10fd,
  .everySecond 0x1e00 0x1e94 0x1e01, .one 0x1e9e [0xdf], .everySecond 0x1ea0 0x1efe 0x1ea1,
  .run 0x1f08 0x1f0f 0x1f00, .run 0x1f18 0x1f1d 0x1f10, .run 0x1f28 0x1f2f 0x1f20, .run 0x1f38 0x1f3f 0x1f30,
  .run 0x1f48 0x1f4d 0x1f40, .everySecond 0x1f59 0x1f5f 0x1f51, .run 0x1f68 0x1f6f 0x1f60,
  .run 0x1f88 0x1f8f 0x1f80, .run 0x1f98 0x1f9f 0x1f90, .run 0x1fa8 0x1faf 0x1fa0, .run 0x1fb8 0x1fb9 0x1fb0,
  .run 0x1fba 0x1fbb 0x1f70, .one 0x1fbc [0x1fb3], .run 0x1fc8 0x1fcb 0x1f72, .one 0x1fcc [0x1fc3],
  .run 0x1fd8 0x1fd9 0x1fd0, .run 0x1fda 0x1fdb 0x1f76, .run 0x1fe8 0x1fe9 0x1fe0, .run 0x1fea 0x1feb 0x1f7a,
  .one 0x1fec [0x1fe5], .run 0x1ff8 0x1ff9 0x1f78, .run 0x1ffa 0x1ffb 0x1f7c, .one 0x1ffc [0x1ff3],
  .one 0x2126 [0x3c9], .one 0x212a [0x6b], .one 0x212b [0xe5], .one 0x2132 [0x214e], .run 0x2160 0x216f 0x2170,
  .one 0x2183 [0x2184], .run 0x24b6 0x24cf 0x24d0, .run 0x2c00 0x2c2f 0x2c30, .one 0x2c60 [0x2c61],
  .one 0x2c62 [0x26b], .one 0x2c63 [0x1d7d], .one 0x2c64 [0x27d], .everySecond 0x2c67 0x2c6b 0x2c68,
  .one 0x2c6d [0x251], .one 0x2c6e [0x271], .one 0x2c6f [0x250], .one 0x2c70 [0x252], .one 0x2c72 [0x2c73],
  .one 0x2c75 [0x2c76], .run 0x2c7e 0x2c7f 0x23f, .everySecond 0x2c80 0x2ce2 0x2c81,
  .everySecond 0x2ceb 0x2ced 0x2cec, .one 0x2cf2 [0x2cf3], .everySecond 0xa640 0xa66c 0xa641,
  .everySecond 0xa680 0xa69a 0xa681, .everySecond 0xa722 0xa72e 0xa723, .everySecond 0xa732 0xa76e 0xa733,
  .everySecond 0xa779 0xa77b 0xa77a, .one 0xa77d [0x1d79], .everySecond 0xa77e 0xa786 0xa77f, .one 0xa78b [0xa78c],
  .one 0xa78d [0x265], .everySecond 0xa790 0xa792 0xa791, .everySecond 0xa796 0xa7a8 0xa797, .one 0xa7aa [0x266],
  .one 0xa7ab [0x25c], .one 0xa7ac [0x261], .one 0xa7ad [0x26c], .one 0xa7ae [0x26a], .one 0xa7b0 [0x29e],
  .one 0xa7b1 [0x287], .one 0xa7b2 [0x29d], .one 0xa7b3 [0xab53], .everySecond 0xa7b4 0xa7c2 0xa7b5,
  .one 0xa7c4 [0xa794], .one 0xa7c5 [0x282], .one 0xa7c6 [0x1d8e], .everySecond 0xa7c7 0xa7c9 0xa7c8,
  .one 0xa7cb [0x264], .everySecond 0xa7cc 0xa7da 0xa7cd, .one 0xa7dc [0x19b], .one 0xa7f5 [0xa7f6],
  .run 0xff21 0xff3a 0xff41, .run 0x10400 0x10427 0x10428, .run 0x104b0 0x104d3 0x104d8,
  .run 0x10570 0x1057a 0x10597, .run 0x1057c 0x1058a 0x105a3, .run 0x1058c 0x10592 0x105b3,
  .run 0x10594 0x10595 0x105bb, .run 0x10c80 0x10cb2 0x10cc0, .run 0x10d50 0x10d65 0x10d70,
  .run 0x118a0 0x118bf 0x118c0, .run 0x16e40 0x16e5f 0x16e60, .run 0x16ea0 0x16eb8 0x16ebb,
  .run 0x1e900 0x1e921 0x1e922]

/-- The upper case of one character; a character without one is kept. -/
def upper (c : Char) : List Char :=
  if c.toNat < 128 then [c.toUpper] else (upperRows.findSome? (·.image? c)).getD [c]

/-- The lower case of one character, whatever its neighbours. -/
def lower (c : Char) : List Char :=
  if c.toNat < 128 then [c.toLower] else (lowerRows.findSome? (·.image? c)).getD [c]

theorem upper_of_ascii {c : Char} (ascii : c.toNat < 128) : upper c = [c.toUpper] := if_pos ascii

/-- Nothing outside ASCII becomes an underscore or a hyphen. -/
theorem not_mem_upper {c mark : Char} (beyond : ¬ c.toNat < 128) (isMark : mark = '_' ∨ mark = '-') :
    mark ∉ upper c := by
  have unreached : upperRows.all (fun row => !row.reaches mark.toNat) = true := by
    rcases isMark with rfl | rfl
    all_goals decide +kernel
  intro member
  rw [upper, if_neg beyond] at member
  cases found : upperRows.findSome? (·.image? c) with
  | none =>
    rw [found] at member
    rw [← List.mem_singleton.mp member] at beyond
    rcases isMark with rfl | rfl
    all_goals exact beyond (by decide)
  | some image =>
    rw [found] at member
    obtain ⟨row, listed, maps⟩ := List.exists_of_findSome?_eq_some found
    have positive : mark.toNat ≠ 0 := by
      rcases isMark with rfl | rfl
      all_goals decide
    have away := List.all_eq_true.mp unreached row listed
    rw [CaseRow.reaches_of_image? maps member positive] at away
    cases away

def upperCase (text : List Char) : List Char := text.flatMap upper

theorem upperCase_append (text rest : List Char) : upperCase (text ++ rest) = upperCase text ++ upperCase rest :=
  List.flatMap_append

private def meetsCased (text : List Char) : Bool :=
  (text.dropWhile isCaseIgnorable).head?.any isCased

/-- A capital sigma is final if a cased letter comes before it and none after it. `before` is what
was read so far, the nearest character first. -/
private def lowerCaseAfter (before : List Char) : List Char → List Char
  | [] => []
  | c :: rest =>
    let small :=
      if c = 'Σ' then [if meetsCased before && !meetsCased rest then 'ς' else 'σ'] else lower c
    small ++ lowerCaseAfter (c :: before) rest

def lowerCase (text : List Char) : List Char := lowerCaseAfter [] text

end TypedTree.Text
