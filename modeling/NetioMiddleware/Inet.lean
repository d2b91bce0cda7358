import NetioMiddleware.MsgQueue

namespace NetioMiddleware

/-- in_addr: the four octets in network order. -/
structure InAddr where
  b0 : UInt8
  b1 : UInt8
  b2 : UInt8
  b3 : UInt8
  deriving DecidableEq

structure SockAddrIn where
  sin_family : UInt16
  sin_port : UInt16
  sin_addr : InAddr
  deriving DecidableEq

/-- inet_ntoa: the format "%d.%d.%d.%d". -/
def inetNtoa (a : InAddr) : Bytes :=
  printNat a.b0.toNat ++ 46 :: (printNat a.b1.toNat ++ 46 ::
    (printNat a.b2.toNat ++ 46 :: printNat a.b3.toNat))

def hexValue (c : UInt8) : Nat :=
  if isDigit c then c.toNat - 48
  else if 97 ≤ c ∧ c ≤ 102 then c.toNat - 87
  else if 65 ≤ c ∧ c ≤ 70 then c.toNat - 55
  else 16

def numeral (base : Nat) (s : Bytes) : Nat × Bytes :=
  ((s.takeWhile (fun c => hexValue c < base)).foldl (fun acc c => base * acc + hexValue c) 0,
    s.dropWhile (fun c => hexValue c < base))

/-- strtoul with base 0 on a text that starts with a digit: the value and the
rest of the text. -/
def strtoul : Bytes → Nat × Bytes
  | 48 :: 120 :: c :: s => if hexValue c < 16 then numeral 16 (c :: s) else (0, 120 :: c :: s)
  | 48 :: 88 :: c :: s => if hexValue c < 16 then numeral 16 (c :: s) else (0, 88 :: c :: s)
  | 48 :: s => numeral 8 (48 :: s)
  | s => numeral 10 s

/-- The loop of inet_aton: `room` more octets may still be followed by a dot. -/
def inetLoop : Nat → List Nat → Bytes → Option (List Nat × Nat × Bytes)
  | room, parts, cp =>
    if (cp.head?.map isDigit).getD false then
      if 2 ^ 32 ≤ (strtoul cp).1 then none
      else
        match (strtoul cp).2, room with
        | 46 :: cp', room + 1 =>
          if 255 < (strtoul cp).1 then none else inetLoop room (parts ++ [(strtoul cp).1]) cp'
        | 46 :: _, 0 => none
        | rest, _ => some (parts, (strtoul cp).1, rest)
    else none

def InAddr.ofValue (v : Nat) : InAddr :=
  ⟨UInt8.ofNat (v / 2 ^ 24), UInt8.ofNat (v / 2 ^ 16), UInt8.ofNat (v / 2 ^ 8), UInt8.ofNat v⟩

def INADDR_NONE : InAddr := ⟨255, 255, 255, 255⟩

/-- inet_addr: the last number fills the octets the earlier ones leave, and
only a blank may follow it. -/
def inetAddr (cp : Bytes) : InAddr :=
  match inetLoop 3 [] cp with
  | none => INADDR_NONE
  | some (parts, val, rest) =>
    if (rest.head?.map isSpace).getD true ∧ val < 256 ^ (4 - parts.length) then
      InAddr.ofValue
        (parts.foldl (fun acc p => 256 * acc + p) 0 * 256 ^ (4 - parts.length) + val)
    else INADDR_NONE

example : inetAddr (bytes "10.0.200.1") = ⟨10, 0, 200, 1⟩ ∧ inetAddr (bytes "1.0x102") = ⟨1, 0, 1, 2⟩ ∧
    inetAddr (bytes "1.2.3.256") = INADDR_NONE := by decide +kernel

theorem inetNtoa_mem {a : InAddr} {c : UInt8} (h : c ∈ inetNtoa a) :
    c = 46 ∨ isDigit c = true := by
  simp only [inetNtoa, List.mem_append, List.mem_cons] at h
  rcases h with h | h | h | h | h | h | h
  all_goals first
    | exact Or.inl h
    | exact Or.inr (printNat_digits c h)

theorem inetNtoa_length (a : InAddr) : (inetNtoa a).length ≤ 15 := by
  have octet : ∀ b : UInt8, (printNat b.toNat).length ≤ 3 := fun b =>
    printNat_length (k := 2) (by have := b.toNat_lt; omega)
  have h0 := octet a.b0
  have h1 := octet a.b1
  have h2 := octet a.b2
  have h3 := octet a.b3
  simp only [inetNtoa, List.length_append, List.length_cons]
  omega

theorem inetNtoa_plain (a : InAddr) : PlainIp (inetNtoa a) := by
  have absent : ∀ c : UInt8, ¬(c = 46 ∨ isDigit c = true) → c ∉ inetNtoa a :=
    fun c hc h => hc (inetNtoa_mem h)
  refine ⟨⟨absent 38 (by decide), absent 61 (by decide), trim_eq_self_of_no_blank ?_⟩,
    absent 0 (by decide), inetNtoa_length a⟩
  intro c hc
  have blanks : (bytes " \x0c\n\r\t\x0b").all (fun y => !(y == 46 || isDigit y)) = true := by decide
  by_contra hn
  have hblank := List.all_eq_true.mp blanks c (by simpa [isTrimmed] using hn)
  obtain rfl | hdigit := inetNtoa_mem hc
  · exact absurd hblank (by decide)
  · simp [hdigit] at hblank

/-- strcmp(inet_ntoa(a), inet_ntoa(b)) == 0. inet_ntoa answers in one static
buffer, so when strcmp runs both its arguments are the text of the call made last. -/
def strcmpInetNtoa (a _b : InAddr) : Bool :=
  let buffer := inetNtoa a
  buffer == buffer

end NetioMiddleware
