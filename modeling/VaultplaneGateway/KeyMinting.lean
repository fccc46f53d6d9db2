import VaultplaneGateway.OfflineKeys

/-!
# Tokens and ids of minted keys

A token is the base 64 text of 32 bytes behind `vp_`, and the id of its key is the first
fifteen characters of it. Twelve digits of base 64 are nine bytes, so an id shows nine
bytes of the secret and no more, and two keys share an id exactly if those nine agree.

Base 64 is decoded four digits at a time; the decoder is in step with the encoder after
every group.
-/
namespace VaultplaneGateway.KeyMinting
open WireFormats KeyRecords OfflineKeys

/-- The value of a digit, the place of the digit in the alphabet. -/
def digitValue (c : Char) : ℕ :=
  "ABCDEFGHIJKLMNOPQRSTUVWXYZabcdefghijklmnopqrstuvwxyz0123456789-_".toList.idxOf c

theorem digitValue_base64Digit {n : ℕ} (hn : n < 64) : digitValue (base64Digit n) = n := by
  have hall : (List.range 64).all (fun n => digitValue (base64Digit n) == n) = true := by
    decide +kernel
  exact beq_iff_eq.mp (List.all_eq_true.mp hall n (List.mem_range.mpr hn))

/-- Groups of four digits are three bytes; a last group of three or two digits is two
bytes or one. -/
def base64Decode : List Char → Bytes
  | a :: b :: c :: d :: rest =>
      let n := digitValue a * 262144 + digitValue b * 4096 + digitValue c * 64 + digitValue d
      UInt8.ofNat (n / 65536) :: UInt8.ofNat (n / 256) :: UInt8.ofNat n :: base64Decode rest
  | [a, b, c] =>
      let n := digitValue a * 262144 + digitValue b * 4096 + digitValue c * 64
      [UInt8.ofNat (n / 65536), UInt8.ofNat (n / 256)]
  | [a, b] => [UInt8.ofNat ((digitValue a * 64 + digitValue b) / 16)]
  | _ => []

/-- Bytes in the first, second and third place of a group of 24 bits. -/
theorem bytes_of_group (a b c : UInt8) :
    let n := a.toNat * 65536 + b.toNat * 256 + c.toNat
    UInt8.ofNat (n / 65536) = a ∧ UInt8.ofNat (n / 256) = b ∧ UInt8.ofNat n = c := by
  have ha := a.toNat_lt
  have hb := b.toNat_lt
  have hc := c.toNat_lt
  refine ⟨?_, ?_, ?_⟩
  · apply UInt8.toNat_inj.mp
    rw [UInt8.toNat_ofNat']
    omega
  · apply UInt8.toNat_inj.mp
    rw [UInt8.toNat_ofNat']
    omega
  · apply UInt8.toNat_inj.mp
    rw [UInt8.toNat_ofNat']
    omega

/-- The four digits of a group of 24 bits give the group again. -/
theorem group_of_digits {n : ℕ} (hn : n < 16777216) :
    digitValue (base64Digit (n / 262144)) * 262144 +
        digitValue (base64Digit (n / 4096 % 64)) * 4096 +
        digitValue (base64Digit (n / 64 % 64)) * 64 + digitValue (base64Digit (n % 64)) = n := by
  rw [digitValue_base64Digit (by omega), digitValue_base64Digit (by omega),
    digitValue_base64Digit (by omega), digitValue_base64Digit (by omega)]
  omega

theorem base64Decode_base64Url (buf : Bytes) : base64Decode (base64Url buf) = buf := by
  induction buf using base64Url.induct with
  | case1 a b c rest ih =>
      have hlt : a.toNat * 65536 + b.toNat * 256 + c.toNat < 16777216 := by
        have ha := a.toNat_lt
        have hb := b.toNat_lt
        have hc := c.toNat_lt
        omega
      obtain ⟨ha, hb, hc⟩ := bytes_of_group a b c
      rw [base64Url, base64Decode, group_of_digits hlt, ha, hb, hc, ih]
  | case2 a b =>
      have hlt : a.toNat * 65536 + b.toNat * 256 < 16777216 := by
        have ha := a.toNat_lt
        have hb := b.toNat_lt
        omega
      obtain ⟨ha, hb, -⟩ := bytes_of_group a b 0
      rw [show (0 : UInt8).toNat = 0 from rfl, Nat.add_zero] at ha hb
      -- the digit that is left out would be that of a zero byte
      have hgroup := group_of_digits hlt
      rw [show (a.toNat * 65536 + b.toNat * 256) % 64 = 0 by omega,
        digitValue_base64Digit (n := 0) (by decide), Nat.add_zero] at hgroup
      rw [base64Url, base64Decode, hgroup, ha, hb]
  | case3 a =>
      have ha := a.toNat_lt
      rw [base64Url, base64Decode, digitValue_base64Digit (by omega),
        digitValue_base64Digit (by omega)]
      have hbyte : (a.toNat / 4 * 64 + a.toNat % 4 * 16) / 16 = a.toNat := by omega
      rw [hbyte, UInt8.ofNat_toNat]
  | case4 => rfl

theorem base64Url_injective : Function.Injective base64Url :=
  Function.LeftInverse.injective base64Decode_base64Url

/-- The first digits of a text are the text of the first bytes. -/
theorem take_base64Url (k : ℕ) (buf : Bytes) (hk : 3 * k ≤ buf.length) :
    (base64Url buf).take (4 * k) = base64Url (buf.take (3 * k)) := by
  induction k generalizing buf with
  | zero => simp [base64Url]
  | succ k ih =>
      match buf with
      | a :: b :: c :: rest =>
          have hrest : 3 * k ≤ rest.length := by
            simp only [List.length_cons] at hk
            omega
          rw [show 4 * (k + 1) = 4 * k + 4 by omega, show 3 * (k + 1) = 3 * k + 3 by omega]
          simp only [base64Url, List.take_succ_cons, ih rest hrest]
      | [_, _] =>
          simp only [List.length_cons, List.length_nil] at hk
          omega
      | [_] =>
          simp only [List.length_cons, List.length_nil] at hk
          omega
      | [] =>
          simp only [List.length_nil] at hk
          omega

/-- The text behind the first three characters. -/
theorem append_right_injective_string (pre : String) :
    Function.Injective fun l : List Char => pre ++ String.ofList l := by
  intro l l' h
  have htext := congrArg String.toList h
  simpa using htext

theorem token_injective (lib : Externals) {buf buf' : Bytes}
    (h : (generateKey lib buf).token = (generateKey lib buf').token) : buf = buf' :=
  base64Url_injective (append_right_injective_string "vp_" h)

/-- An id stands for the first nine bytes. -/
theorem generated_id_eq_iff (lib : Externals) {buf buf' : Bytes} (hbuf : 9 ≤ buf.length)
    (hbuf' : 9 ≤ buf'.length) :
    (generateKey lib buf).id = (generateKey lib buf').id ↔ buf.take 9 = buf'.take 9 := by
  have hid : ∀ b : Bytes, 9 ≤ b.length →
      (generateKey lib b).id = "vp_" ++ String.ofList (base64Url (b.take 9)) := by
    intro b hb
    rw [← take_base64Url 3 b hb]
    rfl
  rw [hid buf hbuf, hid buf' hbuf']
  constructor
  · intro h
    exact base64Url_injective (append_right_injective_string "vp_" h)
  · intro h
    rw [h]

end VaultplaneGateway.KeyMinting
