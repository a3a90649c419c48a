import AccessControl.Text.Character
import Mathlib.Data.List.Basic

/-!
# Byte positions in a text

A text can be cut at a byte position just where a character begins there, or at its end. The bytes
of a text in UTF-8 show where that is: a byte below 128 is a character of its own, and no character
of several bytes has such a byte. So bytes can be searched for the characters of ASCII, and what is
found is the same as in the text itself.
-/

namespace AccessControl.Text

/-- A text cut in two at a byte position; nothing if the position is inside a character or behind
the end. -/
def split? : (position : Nat) → List Char → Option (List Char × List Char)
  | 0, text => some ([], text)
  | _ + 1, [] => none
  | position + 1, c :: rest =>
    if c.utf8Size ≤ position + 1 then
      (split? (position + 1 - c.utf8Size) rest).map (fun (before, after) => (c :: before, after))
    else none

/-- What stands in a text from a byte position on. -/
def behind? (text : List Char) (position : Nat) : Option (List Char) :=
  (split? position text).map Prod.snd

/-- What stands in a text between two byte positions. -/
def slice? (text : List Char) (start stop : Nat) : Option (List Char) :=
  if start ≤ stop then
    (behind? text start).bind (fun rest => (split? (stop - start) rest).map Prod.fst)
  else none

/-- A text can be cut between any two parts of it. -/
theorem split?_append (before after : List Char) :
    split? (byteLength before) (before ++ after) = some (before, after) := by
  induction before with
  | nil => rw [byteLength_nil, split?.eq_def, List.nil_append]
  | cons c before ih =>
    obtain ⟨n, hn⟩ : ∃ n, c.utf8Size + byteLength before = n + 1 :=
      Nat.exists_eq_add_one.mpr (Nat.add_pos_left c.utf8Size_pos _)
    have hrest : n + 1 - c.utf8Size = byteLength before := by omega
    have hsize : c.utf8Size ≤ n + 1 := by omega
    rw [byteLength_cons, hn, List.cons_append, split?, if_pos hsize, hrest, ih]
    rfl

/-- A text is cut at the bytes of a part that it begins with, and nowhere else. -/
theorem split?_eq_some_iff {position : Nat} {text before after : List Char} :
    split? position text = some (before, after) ↔
      before ++ after = text ∧ byteLength before = position := by
  constructor
  · intro h
    fun_induction split? position text generalizing before after with
    | case1 => cases h; exact ⟨rfl, rfl⟩
    | case2 => cases h
    | case3 position c rest hsize ih =>
      obtain ⟨⟨front, back⟩, hsplit, hcut⟩ := Option.map_eq_some_iff.mp h
      cases hcut
      obtain ⟨rfl, hlength⟩ := ih hsplit
      refine ⟨rfl, ?_⟩
      rw [byteLength_cons, hlength]
      omega
    | case4 => cases h
  · rintro ⟨rfl, rfl⟩
    exact split?_append before after

/-- What stands behind a part. -/
theorem behind?_append (before after : List Char) :
    behind? (before ++ after) (byteLength before) = some after := by
  rw [behind?, split?_append, Option.map_some]

/-- What stands between two parts. -/
theorem slice?_append (before part after : List Char) :
    slice? (before ++ (part ++ after)) (byteLength before) (byteLength before + byteLength part) =
      some part := by
  rw [slice?, if_pos (Nat.le_add_right _ _), behind?_append, Option.bind_some,
    Nat.add_sub_cancel_left, split?_append, Option.map_some]

/-- Whether a part stands in a text behind a number of bytes. -/
def StandsAt (text : List Char) (offset : Nat) (part : List Char) : Prop :=
  ∃ before after, text = before ++ part ++ after ∧ offset = (String.ofList before).utf8ByteSize

/-- A part stands where it is cut out. -/
theorem standsAt_append (before part after : List Char) :
    StandsAt (before ++ (part ++ after)) (byteLength before) part :=
  ⟨before, after, (List.append_assoc _ _ _).symm, byteLength_eq_utf8ByteSize before⟩

/-- The bytes of a text in UTF-8, each as the character of its number. -/
def bytes (text : List Char) : List Char :=
  text.flatMap (fun c => (String.utf8EncodeChar c).map Char.ofUInt8)

/-- The bytes of a character before those of the rest. -/
theorem bytes_cons (c : Char) (rest : List Char) :
    bytes (c :: rest) = (String.utf8EncodeChar c).map Char.ofUInt8 ++ bytes rest :=
  List.flatMap_cons

/-- The bytes of two texts in a row are those of both. -/
theorem bytes_append (front back : List Char) : bytes (front ++ back) = bytes front ++ bytes back :=
  List.flatMap_append

/-- There are as many bytes as the length in bytes says. -/
theorem length_bytes (text : List Char) : (bytes text).length = byteLength text := by
  induction text with
  | nil => rfl
  | cons c rest ih =>
    rw [bytes_cons, List.length_append, List.length_map, String.length_utf8EncodeChar, ih,
      byteLength_cons]

/-- The bytes from a position on are those of what stands there. -/
theorem drop_bytes (before after : List Char) :
    (bytes (before ++ after)).drop (byteLength before) = bytes after := by
  rw [bytes_append, ← length_bytes, List.drop_left]

/-- Whether a character is one of ASCII. -/
def IsAscii (c : Char) : Prop := c.toNat < 128

instance (c : Char) : Decidable (IsAscii c) := inferInstanceAs (Decidable (c.toNat < 128))

/-- A byte of a number below 256 is the character of this number. -/
theorem toNat_ofUInt8_ofNat {n : Nat} (h : n < 256) : (Char.ofUInt8 (UInt8.ofNat n)).toNat = n := by
  change (UInt8.ofNat n).toUInt32.toNat = n
  rw [UInt8.toNat_toUInt32, UInt8.toNat_ofNat', Nat.mod_eq_of_lt h]

/-- A character of ASCII is its only byte. -/
theorem bytes_cons_of_isAscii {c : Char} (h : IsAscii c) (rest : List Char) :
    bytes (c :: rest) = c :: bytes rest := by
  have hbyte : Char.ofUInt8 (UInt8.ofNat c.val.toNat) = c :=
    Char.toNat_inj.mp (toNat_ofUInt8_ofNat (Nat.lt_trans h (by decide)))
  have hsmall : c.val.toNat ≤ 127 := Nat.le_of_lt_succ h
  rw [bytes_cons, String.utf8EncodeChar, if_pos hsmall, List.map_singleton, hbyte,
    List.singleton_append]

/-- The first byte of any other character is not one of ASCII. -/
theorem exists_lead_of_not_isAscii {c : Char} (h : ¬IsAscii c) (rest : List Char) :
    ∃ lead others, bytes (c :: rest) = lead :: others ∧ ¬IsAscii lead := by
  have hbyte : ∀ n, 128 ≤ n → n < 256 → ¬IsAscii (Char.ofUInt8 (UInt8.ofNat n)) := by
    intro n hlow hhigh hascii
    rw [IsAscii, toNat_ofUInt8_ofNat hhigh] at hascii
    omega
  have hlarge : ¬c.val.toNat ≤ 127 := fun hsmall => h (Nat.lt_succ_of_le hsmall)
  rw [bytes_cons, String.utf8EncodeChar]
  simp only [if_neg hlarge]
  split
  · exact ⟨_, _, rfl, hbyte _ (by omega) (by omega)⟩
  · split
    · exact ⟨_, _, rfl, hbyte _ (by omega) (by omega)⟩
    · exact ⟨_, _, rfl, hbyte _ (by omega) (by omega)⟩

/-- The first byte of a character is one of ASCII just where it is the character itself. -/
theorem exists_byte (c : Char) (rest : List Char) :
    ∃ b others, bytes (c :: rest) = b :: others ∧ ∀ d, IsAscii d → (b = d ↔ c = d) := by
  by_cases hascii : IsAscii c
  · exact ⟨c, bytes rest, bytes_cons_of_isAscii hascii rest, fun d _ => Iff.rfl⟩
  · obtain ⟨lead, others, hbytes, hlead⟩ := exists_lead_of_not_isAscii hascii rest
    refine ⟨lead, others, hbytes, fun d hd => ⟨?_, ?_⟩⟩
    · rintro rfl
      exact absurd hd hlead
    · rintro rfl
      exact absurd hd hascii

/-- The bytes of a text begin with a character of ASCII just where the text does. -/
theorem head?_bytes {d : Char} (hd : IsAscii d) (text : List Char) :
    (bytes text).head? = some d ↔ text.head? = some d := by
  cases text with
  | nil => exact Iff.rfl
  | cons c rest =>
    obtain ⟨b, others, hbytes, hb⟩ := exists_byte c rest
    rw [hbytes, List.head?_cons, List.head?_cons, Option.some_inj, Option.some_inj]
    exact hb d hd

/-- Characters of ASCII at the head of a text are taken from its bytes as from the text, and leave
the bytes of what they leave of the text. -/
theorem span_bytes {p : Char → Bool} (hp : ∀ c, ¬IsAscii c → p c = false) (text : List Char) :
    (bytes text).takeWhile p = text.takeWhile p ∧
      (bytes text).dropWhile p = bytes (text.dropWhile p) := by
  induction text with
  | nil => exact ⟨rfl, rfl⟩
  | cons c rest ih =>
    by_cases hascii : IsAscii c
    · rw [bytes_cons_of_isAscii hascii, List.takeWhile_cons, List.takeWhile_cons,
        List.dropWhile_cons, List.dropWhile_cons, ih.1, ih.2]
      cases p c with
      | true => exact ⟨rfl, rfl⟩
      | false => exact ⟨rfl, (bytes_cons_of_isAscii hascii rest).symm⟩
    · obtain ⟨lead, others, hbytes, hlead⟩ := exists_lead_of_not_isAscii hascii rest
      rw [hbytes, List.takeWhile_cons, List.takeWhile_cons, List.dropWhile_cons,
        List.dropWhile_cons, hp c hascii, hp lead hlead]
      exact ⟨rfl, hbytes.symm⟩

/-- A character of ASCII has one byte. -/
theorem utf8Size_of_isAscii {c : Char} (h : IsAscii c) : c.utf8Size = 1 :=
  Char.utf8Size_eq_one_iff.mpr (UInt32.le_iff_toNat_le.mpr (Nat.le_of_lt_succ h))

/-- Characters of ASCII have one byte each. -/
theorem byteLength_of_isAscii {text : List Char} (h : ∀ c ∈ text, IsAscii c) :
    byteLength text = text.length := by
  induction text with
  | nil => rfl
  | cons c rest ih =>
    obtain ⟨hc, hrest⟩ := List.forall_mem_cons.mp h
    rw [byteLength_cons, utf8Size_of_isAscii hc, ih hrest, List.length_cons, Nat.add_comm]

end AccessControl.Text
