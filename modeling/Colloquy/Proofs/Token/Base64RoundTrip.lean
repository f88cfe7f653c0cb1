import Colloquy.Text.Ascii
import Colloquy.Token.Base64Url

/-!
# Decoding what is encoded

Bytes that are encoded are decoded again (`decode_encode`). Encoding takes three bytes at a time and
decoding four symbols, but the last four symbols are left for the end, where they are checked for
padding; so the induction is over groups of three bytes, and a last group, whole or not, is the
business of `decodeEnd`.
-/

set_option autoImplicit false

namespace Colloquy.Token.Base64Url

/-- What a symbol is: it has its value, is no padding and no point, and is an ASCII character. -/
theorem symbol_spec : ∀ n < 64, value? (symbol n) = some n ∧ symbol n ≠ pad ∧
    symbol n ≠ Ascii.point ∧ symbol n < 0x80 := by
  decide

/-- The values of the symbols that bytes are encoded with. -/
def sextets : Bytes → List Nat
  | a :: b :: c :: rest =>
    let n := (a.toNat * 256 + b.toNat) * 256 + c.toNat
    n / 262144 :: n / 4096 % 64 :: n / 64 % 64 :: n % 64 :: sextets rest
  | [a, b] =>
    let n := (a.toNat * 256 + b.toNat) * 4
    [n / 4096, n / 64 % 64, n % 64]
  | [a] =>
    let n := a.toNat * 16
    [n / 64, n % 64]
  | [] => []

/-- Bytes are encoded as the symbols of their sextets. -/
theorem encode_eq_map : (bytes : Bytes) → encode bytes = (sextets bytes).map symbol
  | a :: b :: c :: rest => by
    rw [encode, encode_eq_map rest]
    rfl
  | [_, _] => rfl
  | [_] => rfl
  | [] => rfl

/-- A sextet is below sixty-four. -/
theorem lt_of_mem_sextets : (bytes : Bytes) → ∀ n ∈ sextets bytes, n < 64
  | a :: b :: c :: rest => by
    have ha := a.toNat_lt
    have hb := b.toNat_lt
    have hc := c.toNat_lt
    have hrest := lt_of_mem_sextets rest
    simp only [sextets, List.mem_cons, forall_eq_or_imp]
    exact ⟨by omega, by omega, by omega, by omega, hrest⟩
  | [a, b] => by
    have ha := a.toNat_lt
    have hb := b.toNat_lt
    simp only [sextets, List.mem_cons, List.not_mem_nil, or_false, forall_eq_or_imp, forall_eq]
    omega
  | [a] => by
    have ha := a.toNat_lt
    simp only [sextets, List.mem_cons, List.not_mem_nil, or_false, forall_eq_or_imp, forall_eq]
    omega
  | [] => by simp [sextets]

/-- A byte of an encoding is no point and is an ASCII character. -/
theorem of_mem_encode {bytes : Bytes} {b : UInt8} (hb : b ∈ encode bytes) :
    b ≠ Ascii.point ∧ b < 0x80 := by
  rw [encode_eq_map] at hb
  obtain ⟨n, hn, rfl⟩ := List.mem_map.1 hb
  exact (symbol_spec n (lt_of_mem_sextets bytes n hn)).2.2

/-! ## The end of a text -/

/-- Symbols pass the check of the end. -/
theorem checkEnd_symbols (start : Nat) {values : List Nat} (hvalues : ∀ n ∈ values, n < 64)
    (index : Nat) : checkEnd start index none (values.map symbol) = .ok () := by
  induction values generalizing index with
  | nil => rfl
  | cons n values ih =>
    obtain ⟨hvalue, hpad, _⟩ := symbol_spec n (hvalues n List.mem_cons_self)
    rw [List.map_cons, checkEnd, if_neg hpad]
    simp only [hvalue]
    exact ih (fun m hm => hvalues m (List.mem_cons_of_mem n hm)) (index + 1)

/-- The values of symbols. -/
theorem filterMap_value?_symbols {values : List Nat} (hvalues : ∀ n ∈ values, n < 64) :
    (values.map symbol).filterMap value? = values := by
  induction values with
  | nil => rfl
  | cons n values ih =>
    have hvalue := (symbol_spec n (hvalues n List.mem_cons_self)).1
    rw [List.map_cons, List.filterMap_cons_some hvalue,
      ih fun m hm => hvalues m (List.mem_cons_of_mem n hm)]

/-- There is no padding among symbols. -/
theorem filter_symbols {values : List Nat} (hvalues : ∀ n ∈ values, n < 64) :
    (values.map symbol).filter (· ≠ pad) = values.map symbol := by
  rw [List.filter_eq_self]
  intro b hb
  obtain ⟨n, hn, rfl⟩ := List.mem_map.1 hb
  exact decide_eq_true (symbol_spec n (hvalues n hn)).2.1

/-- The byte of a number that it is. -/
theorem ofNat_eq_of_toNat {n : Nat} {b : UInt8} (h : n = b.toNat) : UInt8.ofNat n = b := by
  rw [h, UInt8.ofNat_toNat]

/-- Three bytes as a number: its sextets make it again, and its octets are the bytes. -/
theorem three_bytes {a b c : UInt8} {n : Nat}
    (hn : (a.toNat * 256 + b.toNat) * 256 + c.toNat = n) :
    ((n / 262144 * 64 + n / 4096 % 64) * 64 + n / 64 % 64) * 64 + n % 64 = n ∧
      UInt8.ofNat (n / 65536) = a ∧ UInt8.ofNat (n / 256 % 256) = b ∧
      UInt8.ofNat (n % 256) = c ∧ n / 262144 < 64 := by
  have ha := a.toNat_lt
  have hb := b.toNat_lt
  have hc := c.toNat_lt
  refine ⟨by omega, ?_, ?_, ?_, by omega⟩
  · exact ofNat_eq_of_toNat (by omega)
  · exact ofNat_eq_of_toNat (by omega)
  · exact ofNat_eq_of_toNat (by omega)

/-- The last group of at most three bytes is decoded. -/
theorem decodeEnd_encode (start : Nat) {bytes : Bytes} (hlength : bytes.length ≤ 3) :
    decodeEnd start (encode bytes) = .ok bytes := by
  have hvalues := lt_of_mem_sextets bytes
  have hcheck := checkEnd_symbols start hvalues 0
  have hfilter := filter_symbols hvalues
  have hread := filterMap_value?_symbols hvalues
  rw [← encode_eq_map] at hcheck hfilter hread
  unfold decodeEnd
  simp only [hcheck, hfilter, hread]
  match bytes with
  | [] => rfl
  | [a] =>
    have ha := a.toNat_lt
    obtain ⟨n, hn⟩ : ∃ n, a.toNat * 16 = n := ⟨_, rfl⟩
    have hwhole : n / 64 * 64 + n % 64 = n := by omega
    have hrest : n % 16 = 0 := by omega
    have hfirst : UInt8.ofNat (n / 16) = a := ofNat_eq_of_toNat (by omega)
    simp only [sextets, hn, hwhole, hrest, hfirst, ne_eq, not_true_eq_false, if_false]
    rfl
  | [a, b] =>
    have ha := a.toNat_lt
    have hb := b.toNat_lt
    obtain ⟨n, hn⟩ : ∃ n, (a.toNat * 256 + b.toNat) * 4 = n := ⟨_, rfl⟩
    have hwhole : (n / 4096 * 64 + n / 64 % 64) * 64 + n % 64 = n := by omega
    have hrest : n % 4 = 0 := by omega
    have hfirst : UInt8.ofNat (n / 1024) = a := ofNat_eq_of_toNat (by omega)
    have hsecond : UInt8.ofNat (n / 4 % 256) = b := ofNat_eq_of_toNat (by omega)
    simp only [sextets, hn, hwhole, hrest, hfirst, hsecond, ne_eq, not_true_eq_false, if_false]
    rfl
  | [a, b, c] =>
    obtain ⟨n, hn⟩ : ∃ n, (a.toNat * 256 + b.toNat) * 256 + c.toNat = n := ⟨_, rfl⟩
    obtain ⟨hwhole, hfirst, hsecond, hthird, _⟩ := three_bytes hn
    simp only [sextets, hn, hwhole, hfirst, hsecond, hthird]
    rfl

/-! ## The whole text -/

/-- Four symbols that are not the last ones make three bytes. -/
theorem decodeFrom_group (start : Nat) (read : Bytes) {w x y z : Nat} (hw : w < 64) (hx : x < 64)
    (hy : y < 64) (hz : z < 64) {s : Bytes} (hs : s ≠ []) :
    let n := ((w * 64 + x) * 64 + y) * 64 + z
    decodeFrom start read (symbol w :: symbol x :: symbol y :: symbol z :: s) =
      decodeFrom (start + 4)
        (UInt8.ofNat (n % 256) :: UInt8.ofNat (n / 256 % 256) :: UInt8.ofNat (n / 65536) :: read)
        s := by
  intro n
  cases s with
  | nil => exact absurd rfl hs
  | cons e rest =>
    rw [decodeFrom]
    simp only [readSymbol, (symbol_spec w hw).1, (symbol_spec x hx).1, (symbol_spec y hy).1,
      (symbol_spec z hz).1]
    rfl

/-- What is encoded of some bytes is not empty. -/
theorem encode_ne_nil {bytes : Bytes} (h : bytes ≠ []) : encode bytes ≠ [] := by
  match bytes with
  | [] => exact absurd rfl h
  | [_] => simp [encode]
  | [_, _] => simp [encode]
  | _ :: _ :: _ :: _ => simp [encode]

/-- At most four symbols are the last ones. -/
theorem decodeFrom_end (start : Nat) (read : Bytes) {s : Bytes} (hs : s.length ≤ 4) :
    decodeFrom start read s = (decodeEnd start s).map (read.reverse ++ ·) := by
  match s with
  | [] => rfl
  | [_] => rfl
  | [_, _] => rfl
  | [_, _, _] => rfl
  | [_, _, _, _] => rfl
  | _ :: _ :: _ :: _ :: _ :: rest =>
    simp only [List.length_cons] at hs
    omega

/-- The last group of at most three bytes is decoded behind those that have been read. -/
theorem decodeFrom_short (start : Nat) (read : Bytes) {bytes : Bytes}
    (hlength : bytes.length ≤ 3) :
    decodeFrom start read (encode bytes) = .ok (read.reverse ++ bytes) := by
  have hsymbols : (encode bytes).length ≤ 4 := by
    match bytes with
    | [] => simp [encode]
    | [_] => simp [encode]
    | [_, _] => simp [encode]
    | [_, _, _] => simp [encode]
  rw [decodeFrom_end start read hsymbols, decodeEnd_encode start hlength]
  rfl

/-- The last bytes of a text are decoded behind those that have been read. -/
theorem decodeFrom_encode (start : Nat) (read : Bytes) : (bytes : Bytes) →
    decodeFrom start read (encode bytes) = .ok (read.reverse ++ bytes)
  | a :: b :: c :: d :: rest => by
    obtain ⟨n, hn⟩ : ∃ n, (a.toNat * 256 + b.toNat) * 256 + c.toNat = n := ⟨_, rfl⟩
    obtain ⟨hwhole, hfirst, hsecond, hthird, hsmall⟩ := three_bytes hn
    have hgroup := decodeFrom_group start read hsmall (Nat.mod_lt (n / 4096) (by decide))
      (Nat.mod_lt (n / 64) (by decide)) (Nat.mod_lt n (by decide))
      (encode_ne_nil (List.cons_ne_nil d rest))
    simp only [hwhole, hfirst, hsecond, hthird] at hgroup
    have hothers := decodeFrom_encode (start + 4) (c :: b :: a :: read) (d :: rest)
    have hencode : encode (a :: b :: c :: d :: rest) =
        symbol (n / 262144) :: symbol (n / 4096 % 64) :: symbol (n / 64 % 64) :: symbol (n % 64) ::
          encode (d :: rest) := by
      rw [encode, hn]
    rw [hencode, hgroup, hothers]
    simp
  | [_, _, _] => decodeFrom_short start read (by simp)
  | [_, _] => decodeFrom_short start read (by simp)
  | [_] => decodeFrom_short start read (by simp)
  | [] => decodeFrom_short start read (by simp)

/-- Bytes that are encoded are decoded again. -/
theorem decode_encode (bytes : Bytes) : decode (encode bytes) = .ok bytes := by
  have hstray : strayEnd? (encode bytes) = none := by
    unfold strayEnd?
    split
    · cases hlast : (encode bytes).getLast? with
      | none => rfl
      | some b =>
        have hb : b ∈ (sextets bytes).map symbol := by
          rw [← encode_eq_map]
          exact List.mem_of_getLast? hlast
        obtain ⟨n, hn, rfl⟩ := List.mem_map.1 hb
        have hvalue := (symbol_spec n (lt_of_mem_sextets bytes n hn)).1
        simp [hvalue]
    · rfl
  unfold decode
  rw [hstray]
  exact decodeFrom_encode 0 [] bytes

end Colloquy.Token.Base64Url
