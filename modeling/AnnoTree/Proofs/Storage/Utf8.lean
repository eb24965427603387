import AnnoTree.Text.Utf8
import Mathlib

/-!
# UTF-8 round trip

Octets of an encoded text are decoded to that text, and no others are. The decoder takes the octets
of one character after another: the first announces how many are owed and the range of the next
one, and each later one adds six bits. Conversely, what the decoder has taken as one character is
the encoding of that character, as the ranges leave room for neither a shorter form nor a number
that is no code point.

## Main definitions

- `Text.Announces`: what the first octet of a character tells the decoder.
- `Text.Pending.Completes`: octets that complete a character.

## Main statements

- `Text.decodeUtf8Aux_char`: the octets of one character are taken as that character.
- `Text.decodeUtf8_encodeUtf8`: the round trip.
- `Text.decodeUtf8_eq_whole_iff`: the octets that are decoded are those of encoded texts.
-/

namespace AnnoTree.Text

/-! ## §1 First octets -/

/-- After the octet `b` some octets are owed, of which `next` may be the first, and the bits read
so far are those of `bits`. -/
def Announces (b owed bits next : ℕ) : Prop :=
  ∃ p, leadOctet b = some (.inr p) ∧ p.owed = owed ∧ p.bits = bits ∧ p.least ≤ next ∧
    next ≤ p.greatest

theorem leadOctet_one {v : ℕ} (h : v ≤ 0x7F) : leadOctet v = some (.inl (Char.ofNat v)) :=
  if_pos h

/-- The first octet of two. -/
theorem announces_two {v : ℕ} (hleast : 0x7F < v) (hgreatest : v ≤ 0x7FF) :
    Announces (v / 64 % 32 + 192) 1 (v / 64) (v % 64 + 128) := by
  have hbits : v / 64 % 32 = v / 64 := by omega
  have hpending : leadOctet (v / 64 + 192) = some (.inr ⟨1, 0x80, 0xBF, v / 64 + 192 - 192⟩) := by
    unfold leadOctet
    rw [if_neg (by omega), if_pos]
    simp only [Bool.and_eq_true, decide_eq_true_eq]
    omega
  rw [hbits]
  refine ⟨_, hpending, rfl, by simp, ?_, ?_⟩
  · show 0x80 ≤ v % 64 + 128
    omega
  · show v % 64 + 128 ≤ 0xBF
    omega

/-- The first octet of three. Two of them stand for a range that is cut off: the shorter forms
below, and the halves of pairs above. -/
theorem announces_three {v : ℕ} (hleast : 0x7FF < v) (hgreatest : v ≤ 0xFFFF)
    (hvalid : v < 0xD800 ∨ 0xDFFF < v) :
    Announces (v / 4096 % 16 + 224) 2 (v / 4096) (v / 64 % 64 + 128) := by
  have hbits : v / 4096 % 16 = v / 4096 := by omega
  rw [hbits]
  -- the next octet is bounded from below where a shorter form would do
  by_cases hlow : v / 4096 = 0
  · rw [hlow]
    refine ⟨⟨2, 0xA0, 0xBF, 0⟩, rfl, rfl, rfl, ?_, ?_⟩
    · show 0xA0 ≤ v / 64 % 64 + 128
      omega
    · show v / 64 % 64 + 128 ≤ 0xBF
      omega
  -- and from above in front of the halves of pairs
  by_cases hhalf : v / 4096 = 13
  · rw [hhalf]
    refine ⟨⟨2, 0x80, 0x9F, 13⟩, rfl, rfl, rfl, ?_, ?_⟩
    · show 0x80 ≤ v / 64 % 64 + 128
      omega
    · show v / 64 % 64 + 128 ≤ 0x9F
      omega
  have hpending : leadOctet (v / 4096 + 224) =
      some (.inr ⟨2, 0x80, 0xBF, v / 4096 + 224 - 224⟩) := by
    unfold leadOctet
    rw [if_neg (by omega), if_neg, if_neg (by omega), if_neg (by omega), if_pos]
    · simp only [Bool.and_eq_true, decide_eq_true_eq]
      omega
    · simp only [Bool.and_eq_true, decide_eq_true_eq]
      omega
  refine ⟨_, hpending, rfl, by simp, ?_, ?_⟩
  · show 0x80 ≤ v / 64 % 64 + 128
    omega
  · show v / 64 % 64 + 128 ≤ 0xBF
    omega

/-- The first octet of four. Two of them stand for a range that is cut off: the shorter forms
below, and what is no code point above. -/
theorem announces_four {v : ℕ} (hleast : 0xFFFF < v) (hvalid : v < 0x110000) :
    Announces (v / 262144 % 8 + 240) 3 (v / 262144) (v / 4096 % 64 + 128) := by
  have hbits : v / 262144 % 8 = v / 262144 := by omega
  rw [hbits]
  by_cases hlow : v / 262144 = 0
  · rw [hlow]
    refine ⟨⟨3, 0x90, 0xBF, 0⟩, rfl, rfl, rfl, ?_, ?_⟩
    · show 0x90 ≤ v / 4096 % 64 + 128
      omega
    · show v / 4096 % 64 + 128 ≤ 0xBF
      omega
  by_cases hhigh : v / 262144 = 4
  · rw [hhigh]
    refine ⟨⟨3, 0x80, 0x8F, 4⟩, rfl, rfl, rfl, ?_, ?_⟩
    · show 0x80 ≤ v / 4096 % 64 + 128
      omega
    · show v / 4096 % 64 + 128 ≤ 0x8F
      omega
  have hpending : leadOctet (v / 262144 + 240) =
      some (.inr ⟨3, 0x80, 0xBF, v / 262144 + 240 - 240⟩) := by
    unfold leadOctet
    rw [if_neg (by omega), if_neg, if_neg (by omega), if_neg (by omega), if_neg,
      if_neg (by omega), if_pos]
    · simp only [Bool.and_eq_true, decide_eq_true_eq]
      omega
    · simp only [Bool.and_eq_true, decide_eq_true_eq]
      omega
    · simp only [Bool.and_eq_true, decide_eq_true_eq]
      omega
  refine ⟨_, hpending, rfl, by simp, ?_, ?_⟩
  · show 0x80 ≤ v / 4096 % 64 + 128
    omega
  · show v / 4096 % 64 + 128 ≤ 0xBF
    omega

/-! ## §2 One character -/

theorem toNat_ofNat {b : ℕ} (h : b < 256) : (UInt8.ofNat b).toNat = b := by
  rw [UInt8.toNat_ofNat']
  exact Nat.mod_eq_of_lt h

/-- The decoder after a first octet and the next one, of which some are owed still. -/
theorem decodeUtf8Aux_lead {b owed bits next : ℕ} (h : Announces b (owed + 1) bits next)
    (hb : b < 256) (hnext : next < 256) (text : List Char) (offset : ℕ) (rest : List Octet) :
    decodeUtf8Aux text offset none (UInt8.ofNat b :: UInt8.ofNat next :: rest) =
      if owed = 0 then decodeUtf8Aux (Char.ofNat (bits * 64 + (next - 0x80)) :: text)
        (offset + 2) none rest
      else decodeUtf8Aux text (offset + 2)
        (some ⟨owed, 0x80, 0xBF, bits * 64 + (next - 0x80)⟩) rest := by
  obtain ⟨p, hlead, howed, rfl, hleast, hgreatest⟩ := h
  by_cases hlast : owed = 0
  · subst hlast
    simp [decodeUtf8Aux, toNat_ofNat hb, toNat_ofNat hnext, hlead, Pending.next, hleast, hgreatest,
      howed]
  · simp [decodeUtf8Aux, toNat_ofNat hb, toNat_ofNat hnext, hlead, Pending.next, hleast, hgreatest,
      howed, hlast]

/-- The decoder after a later octet. -/
theorem decodeUtf8Aux_later {owed bits b : ℕ} (hb : b < 64) (text : List Char) (offset : ℕ)
    (rest : List Octet) :
    decodeUtf8Aux text offset (some ⟨owed, 0x80, 0xBF, bits⟩) (UInt8.ofNat (b + 128) :: rest) =
      if owed ≤ 1 then decodeUtf8Aux (Char.ofNat (bits * 64 + b) :: text) (offset + 1) none rest
      else decodeUtf8Aux text (offset + 1) (some ⟨owed - 1, 0x80, 0xBF, bits * 64 + b⟩) rest := by
  have hgreatest : b + 128 ≤ 0xBF := by omega
  have hoctet : (b + 128) % 256 = b + 128 := by omega
  by_cases hlast : owed ≤ 1
  · simp [decodeUtf8Aux, hoctet, Pending.next, hgreatest, hlast]
  · simp [decodeUtf8Aux, hoctet, Pending.next, hgreatest, hlast]

/-- The octets of a character, by the size of its code point. -/
theorem utf8EncodeChar_eq (c : Char) {v : ℕ} (hv : c.toNat = v) :
    String.utf8EncodeChar c =
      if v ≤ 127 then [UInt8.ofNat v]
      else if v ≤ 2047 then [UInt8.ofNat (v / 64 % 32 + 192), UInt8.ofNat (v % 64 + 128)]
      else if v ≤ 65535 then [UInt8.ofNat (v / 4096 % 16 + 224),
        UInt8.ofNat (v / 64 % 64 + 128), UInt8.ofNat (v % 64 + 128)]
      else [UInt8.ofNat (v / 262144 % 8 + 240), UInt8.ofNat (v / 4096 % 64 + 128),
        UInt8.ofNat (v / 64 % 64 + 128), UInt8.ofNat (v % 64 + 128)] := by
  rw [← hv]
  rfl

/-- **The octets of one character are taken as that character.** -/
theorem decodeUtf8Aux_char (c : Char) (text : List Char) (offset : ℕ) (rest : List Octet) :
    decodeUtf8Aux text offset none (String.utf8EncodeChar c ++ rest) =
      decodeUtf8Aux (c :: text) (offset + (String.utf8EncodeChar c).length) none rest := by
  obtain ⟨v, hv⟩ : ∃ v, c.toNat = v := ⟨_, rfl⟩
  have hvalid : v < 0xD800 ∨ 0xDFFF < v ∧ v < 0x110000 := hv ▸ c.valid
  have hchar : Char.ofNat v = c := hv ▸ Char.ofNat_toNat c
  rw [utf8EncodeChar_eq c hv]
  -- one, two, three or four octets, by the size of the code point
  by_cases hone : v ≤ 127
  · rw [if_pos hone]
    simp [decodeUtf8Aux, toNat_ofNat (show v < 256 by omega), leadOctet_one hone, hchar]
  rw [if_neg hone]
  by_cases htwo : v ≤ 2047
  · rw [if_pos htwo]
    have hbits : v / 64 * 64 + (v % 64 + 128 - 0x80) = v := by omega
    simp only [List.cons_append, List.nil_append]
    rw [decodeUtf8Aux_lead (announces_two (by omega) htwo) (by omega) (by omega), hbits, hchar]
    rfl
  rw [if_neg htwo]
  by_cases hthree : v ≤ 65535
  · rw [if_pos hthree]
    have hbits : (v / 4096 * 64 + (v / 64 % 64 + 128 - 0x80)) * 64 + v % 64 = v := by omega
    simp only [List.cons_append, List.nil_append]
    rw [decodeUtf8Aux_lead (announces_three (by omega) hthree (by omega)) (by omega) (by omega)]
    rw [if_neg (by decide), decodeUtf8Aux_later (by omega), hbits, hchar]
    rfl
  · rw [if_neg hthree]
    have hbits : ((v / 262144 * 64 + (v / 4096 % 64 + 128 - 0x80)) * 64 + v / 64 % 64) * 64 +
        v % 64 = v := by
      omega
    simp only [List.cons_append, List.nil_append]
    rw [decodeUtf8Aux_lead (announces_four (by omega) (by omega)) (by omega) (by omega)]
    rw [if_neg (by decide), decodeUtf8Aux_later (by omega), if_neg (by decide),
      decodeUtf8Aux_later (by omega), hbits, hchar]
    rfl

/-! ## §3 Texts -/

theorem decodeUtf8Aux_chars (cs text : List Char) (offset : ℕ) :
    decodeUtf8Aux text offset none (cs.flatMap String.utf8EncodeChar) =
      .whole (text.reverse ++ cs) := by
  induction cs generalizing text offset with
  | nil => simp [decodeUtf8Aux]
  | cons c cs ih =>
    rw [List.flatMap_cons, decodeUtf8Aux_char, ih]
    simp

/-- **The round trip**: the octets of a text are decoded to all of it. -/
theorem decodeUtf8_encodeUtf8 (s : String) : decodeUtf8 (encodeUtf8 s) = .whole s.toList :=
  decodeUtf8Aux_chars s.toList [] 0

/-! ## §4 Octets that are decoded -/

/-- The octets that complete a character. -/
inductive Pending.Completes : Pending → List Octet → Char → Prop where
  | last {p : Pending} {b : Octet} {c : Char} (h : p.next b.toNat = some (.inl c)) :
      Completes p [b] c
  | more {p q : Pending} {b : Octet} {rest : List Octet} {c : Char}
      (h : p.next b.toNat = some (.inr q)) (completes : Completes q rest c) :
      Completes p (b :: rest) c

theorem Pending.next_eq_inl_iff {p : Pending} {b : ℕ} {c : Char} :
    p.next b = some (.inl c) ↔
      (p.least ≤ b ∧ b ≤ p.greatest) ∧ p.owed ≤ 1 ∧ c = Char.ofNat (p.bits * 64 + (b - 0x80)) := by
  by_cases hrange : p.least ≤ b ∧ b ≤ p.greatest
  · by_cases hlast : p.owed ≤ 1
    · simp [Pending.next, hrange, hlast, eq_comm]
    · simp [Pending.next, hrange, hlast]
  · simp [Pending.next, hrange]

theorem Pending.next_eq_inr_iff {p q : Pending} {b : ℕ} :
    p.next b = some (.inr q) ↔
      (p.least ≤ b ∧ b ≤ p.greatest) ∧ 1 < p.owed ∧
        q = ⟨p.owed - 1, 0x80, 0xBF, p.bits * 64 + (b - 0x80)⟩ := by
  by_cases hrange : p.least ≤ b ∧ b ≤ p.greatest
  · by_cases hlast : p.owed ≤ 1
    · simp [Pending.next, hrange, hlast]
    · simp [Pending.next, hrange, hlast, eq_comm]
      omega
  · simp [Pending.next, hrange]

/-- Inside a character, the decoder goes on until the character is complete. -/
theorem exists_completes {p : Pending} {octets : List Octet} {text result : List Char}
    {offset : ℕ} (h : decodeUtf8Aux text offset (some p) octets = .whole result) :
    ∃ taken rest c, octets = taken ++ rest ∧ p.Completes taken c ∧
      decodeUtf8Aux (c :: text) (offset + taken.length) none rest = .whole result := by
  induction octets generalizing p offset with
  | nil => cases h
  | cons b octets ih =>
    rw [decodeUtf8Aux] at h
    cases hnext : p.next b.toNat with
    | none =>
      rw [hnext] at h
      cases h
    | some found =>
      rw [hnext] at h
      cases found with
      | inl c => exact ⟨[b], octets, c, rfl, .last hnext, h⟩
      | inr q =>
        obtain ⟨taken, rest, c, rfl, hcompletes, hrest⟩ := ih h
        refine ⟨b :: taken, rest, c, rfl, .more hnext hcompletes, ?_⟩
        rw [List.length_cons, ← Nat.add_assoc, Nat.add_right_comm]
        exact hrest

/-- What the first octet of a longer character leaves open: the ranges exclude shorter forms, the
halves of pairs, and what is no code point. -/
theorem leadOctet_eq_inr {b : ℕ} {p : Pending} (h : leadOctet b = some (.inr p)) :
    (0x80 ≤ p.least ∧ p.greatest ≤ 0xBF) ∧
      (p.owed = 1 ∧ b = p.bits + 0xC0 ∧ 2 ≤ p.bits ∧ p.bits ≤ 0x1F ∨
        (p.owed = 2 ∧ b = p.bits + 0xE0 ∧ p.bits ≤ 0xF ∧ (p.bits = 0 → 0xA0 ≤ p.least) ∧
          (p.bits = 0xD → p.greatest ≤ 0x9F)) ∨
        p.owed = 3 ∧ b = p.bits + 0xF0 ∧ p.bits ≤ 4 ∧ (p.bits = 0 → 0x90 ≤ p.least) ∧
          (p.bits = 4 → p.greatest ≤ 0x8F)) := by
  simp only [leadOctet, Bool.and_eq_true, decide_eq_true_eq] at h
  -- one case for each range of first octets
  repeat' split at h
  all_goals cases h <;> dsimp only <;> omega

theorem Pending.Completes.of_owed_one {p : Pending} {taken : List Octet} {c : Char}
    (h : p.Completes taken c) (howed : p.owed = 1) :
    ∃ b, taken = [b] ∧ (p.least ≤ b.toNat ∧ b.toNat ≤ p.greatest) ∧
      c = Char.ofNat (p.bits * 64 + (b.toNat - 0x80)) := by
  cases h with
  | last h =>
    obtain ⟨hrange, -, hc⟩ := Pending.next_eq_inl_iff.mp h
    exact ⟨_, rfl, hrange, hc⟩
  | more h completes =>
    obtain ⟨-, hmore, -⟩ := Pending.next_eq_inr_iff.mp h
    omega

theorem Pending.Completes.of_owed_more {p : Pending} {taken : List Octet} {c : Char}
    (h : p.Completes taken c) (howed : 1 < p.owed) :
    ∃ (b : Octet) (rest : List Octet) (q : Pending), taken = b :: rest ∧
      (p.least ≤ b.toNat ∧ b.toNat ≤ p.greatest) ∧ q.owed = p.owed - 1 ∧
      (q.least = 0x80 ∧ q.greatest = 0xBF) ∧
      q.bits = p.bits * 64 + (b.toNat - 0x80) ∧ q.Completes rest c := by
  cases h with
  | last h =>
    obtain ⟨-, hlast, -⟩ := Pending.next_eq_inl_iff.mp h
    omega
  | more h completes =>
    obtain ⟨hrange, -, hq⟩ := Pending.next_eq_inr_iff.mp h
    refine ⟨_, _, _, rfl, hrange, ?_, ?_, ?_, completes⟩
    all_goals simp [hq]

theorem octet_eq {b : Octet} {n : ℕ} (h : b.toNat = n) : b = UInt8.ofNat n := by
  rw [← h, UInt8.ofNat_toNat]

theorem toNat_char {v : ℕ} (h : v < 0xD800 ∨ 0xDFFF < v ∧ v < 0x110000) :
    (Char.ofNat v).toNat = v := by
  rw [Char.toNat_ofNat, if_pos h]

/-- **The octets that are taken as a character** are those of the character. -/
theorem Pending.Completes.encoded {b : Octet} {p : Pending} {taken : List Octet} {c : Char}
    (h : p.Completes taken c) (hlead : leadOctet b.toNat = some (.inr p)) :
    String.utf8EncodeChar c = b :: taken := by
  obtain ⟨⟨hleast, hgreatest⟩, hopen⟩ := leadOctet_eq_inr hlead
  rcases hopen with ⟨howed, hb, hlow, hhigh⟩ | ⟨howed, hb, hhigh, hshort, hhalf⟩ |
    ⟨howed, hb, hhigh, hshort, hbeyond⟩
  · -- two octets
    obtain ⟨b₂, rfl, hrange, hc⟩ := h.of_owed_one howed
    obtain ⟨v, hv⟩ : ∃ v, v = p.bits * 64 + (b₂.toNat - 0x80) := ⟨_, rfl⟩
    have hchar : c.toNat = v := by
      rw [hc, ← hv]
      exact toNat_char (by omega)
    rw [utf8EncodeChar_eq c hchar, if_neg (by omega), if_pos (by omega),
      ← octet_eq (b := b) (by omega), ← octet_eq (b := b₂) (by omega)]
  · -- three octets
    obtain ⟨b₂, rest, q, rfl, hrange, howed₂, hrange₂, hbits₂, hrest⟩ :=
      h.of_owed_more (by omega)
    obtain ⟨b₃, rfl, hrange₃, hc⟩ := hrest.of_owed_one (by omega)
    obtain ⟨v, hv⟩ : ∃ v, v = q.bits * 64 + (b₃.toNat - 0x80) := ⟨_, rfl⟩
    have hchar : c.toNat = v := by
      rw [hc, ← hv]
      exact toNat_char (by omega)
    rw [utf8EncodeChar_eq c hchar, if_neg (by omega), if_neg (by omega), if_pos (by omega),
      ← octet_eq (b := b) (by omega), ← octet_eq (b := b₂) (by omega),
      ← octet_eq (b := b₃) (by omega)]
  · -- four octets
    obtain ⟨b₂, rest, q, rfl, hrange, howed₂, hrange₂, hbits₂, hrest⟩ :=
      h.of_owed_more (by omega)
    obtain ⟨b₃, rest₃, r, rfl, hrange₃, howed₃, hrange₃', hbits₃, hrest₃⟩ :=
      hrest.of_owed_more (by omega)
    obtain ⟨b₄, rfl, hrange₄, hc⟩ := hrest₃.of_owed_one (by omega)
    obtain ⟨v, hv⟩ : ∃ v, v = r.bits * 64 + (b₄.toNat - 0x80) := ⟨_, rfl⟩
    have hchar : c.toNat = v := by
      rw [hc, ← hv]
      exact toNat_char (by omega)
    rw [utf8EncodeChar_eq c hchar, if_neg (by omega), if_neg (by omega), if_neg (by omega),
      ← octet_eq (b := b) (by omega), ← octet_eq (b := b₂) (by omega),
      ← octet_eq (b := b₃) (by omega), ← octet_eq (b := b₄) (by omega)]

/-- An octet that is a character of its own. -/
theorem encoded_of_leadOctet {b : Octet} {c : Char} (h : leadOctet b.toNat = some (.inl c)) :
    String.utf8EncodeChar c = [b] := by
  have hascii : b.toNat ≤ 0x7F ∧ c = Char.ofNat b.toNat := by
    unfold leadOctet at h
    repeat' split at h
    all_goals cases h
    exact ⟨‹_›, rfl⟩
  have hchar : c.toNat = b.toNat := by
    rw [hascii.2]
    exact toNat_char (by omega)
  rw [utf8EncodeChar_eq c hchar, if_pos hascii.1, UInt8.ofNat_toNat]

/-- The decoder takes octets a character at a time. -/
theorem encoded_of_decodeUtf8Aux {octets : List Octet} {text result : List Char} {offset : ℕ}
    (h : decodeUtf8Aux text offset none octets = .whole result) :
    ∃ cs, octets = cs.flatMap String.utf8EncodeChar ∧ result = text.reverse ++ cs := by
  induction hlength : octets.length using Nat.strongRecOn generalizing octets text offset with
  | ind n ih =>
    cases octets with
    | nil =>
      cases h
      exact ⟨[], rfl, (List.append_nil _).symm⟩
    | cons b octets =>
      rw [decodeUtf8Aux] at h
      rw [List.length_cons] at hlength
      cases hlead : leadOctet b.toNat with
      | none =>
        rw [hlead] at h
        cases h
      | some found =>
        rw [hlead] at h
        cases found with
        | inl c =>
          obtain ⟨cs, rfl, hresult⟩ := ih octets.length (by omega) h rfl
          refine ⟨c :: cs, ?_, by simp [hresult]⟩
          rw [List.flatMap_cons, encoded_of_leadOctet hlead]
          rfl
        | inr p =>
          obtain ⟨taken, rest, c, rfl, hcompletes, hrest⟩ := exists_completes h
          rw [List.length_append] at hlength
          obtain ⟨cs, hcs, hresult⟩ := ih rest.length (by omega) hrest rfl
          refine ⟨c :: cs, ?_, by simp [hresult]⟩
          rw [List.flatMap_cons, hcompletes.encoded hlead, ← hcs]
          rfl

/-- **The octets that are decoded are those of encoded texts**, and no others. -/
theorem decodeUtf8_eq_whole_iff {octets : List Octet} {text : List Char} :
    decodeUtf8 octets = .whole text ↔ octets = encodeUtf8 (String.ofList text) := by
  constructor
  · intro h
    obtain ⟨cs, rfl, rfl⟩ := encoded_of_decodeUtf8Aux h
    rw [encodeUtf8, String.toList_ofList]
  · rintro rfl
    rw [decodeUtf8_encodeUtf8, String.toList_ofList]

end AnnoTree.Text
