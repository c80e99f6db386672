import Mathlib.Data.List.TakeWhile
import ShareBroker.Filesystem.Info

/-!
# The grammar of server addresses

`Address.parse` reads a server address in one of three forms: an IPv6 address, taken whole with
no port; a host name or IPv4 address; or a bracketed host, the last two with an optional
`:port`. `Address.Form` writes these forms out as a grammar, and `parse` accepts exactly its
texts, with the host and port the grammar gives them. Every other text is refused, either for
what is left after the host and port or for an empty host.

The three forms never overlap. An IPv6 address holds at least two colons and no `[`, while a
host name with its port holds at most one colon and a bracketed host starts with `[`. Both facts
are read off the IPv6 reader: every group after the first and the `::` follow a colon, and no
step of the reader takes a `[` (`Ipv6.Consumes` says what a step takes).

## Key results

- `Ipv6.two_colons_of_isAddressChars`: what an IPv6 address is made of
- `Address.readPort_eq_nil_iff`: what follows a host is read whole exactly when it is a port
  suffix
- `Address.hostPort_iff`: reading a host and a port suffix succeeds exactly on the two written
  forms
- `Address.parse_eq_ok_iff`, `Address.parse_eq_error`: what `parse` accepts and how it refuses
- `Address.parse_accepts_its_grammar`: all of it, with the message of a refusal
-/

namespace ShareBroker

namespace Ipv6

/-! ## What the IPv6 reader takes -/

/-- A reading step that succeeds takes off the front of its input a run of characters that
satisfy `q`. -/
def Consumes (q : Char → Prop) (f : List Char → Option (List Char)) : Prop :=
  ∀ cs rest, f cs = some rest → ∃ pre, cs = pre ++ rest ∧ ∀ c ∈ pre, q c

section Consumes

variable {q q' : Char → Prop} {f g : List Char → Option (List Char)}

theorem Consumes.bind (hf : Consumes q f) (hg : Consumes q g) :
    Consumes q fun cs => f cs >>= g := by
  intro cs rest h
  obtain ⟨mid, hmid, hrest⟩ := Option.bind_eq_some_iff.1 h
  obtain ⟨pre₁, rfl, h₁⟩ := hf cs mid hmid
  obtain ⟨pre₂, rfl, h₂⟩ := hg mid rest hrest
  refine ⟨pre₁ ++ pre₂, by rw [List.append_assoc], fun c hc => ?_⟩
  rcases List.mem_append.1 hc with hc | hc
  · exact h₁ c hc
  · exact h₂ c hc

theorem Consumes.mono (hf : Consumes q f) (hq : ∀ c, q c → q' c) : Consumes q' f := by
  intro cs rest h
  obtain ⟨pre, hcs, hpre⟩ := hf cs rest h
  exact ⟨pre, hcs, fun c hc => hq c (hpre c hc)⟩

end Consumes

theorem eq_of_expect {c : Char} {cs rest : List Char} (h : expect c cs = some rest) :
    cs = c :: rest := by
  cases cs with
  | nil => simp [expect] at h
  | cons d ds =>
    simp only [expect] at h
    split_ifs at h with hd
    cases h
    rw [hd]

theorem consumes_expect (c : Char) : Consumes (· = c) (expect c) :=
  fun _ _ h => ⟨[c], eq_of_expect h, by simp⟩

theorem consumes_readNumber (radix maxDigits bound : Nat) (zeroPrefix : Bool) :
    Consumes (fun c => (digitValue radix c).isSome) (readNumber radix maxDigits bound zeroPrefix) := by
  intro cs rest h
  unfold readNumber at h
  dsimp only at h
  split_ifs at h
  cases h
  -- the digits read are a prefix of the text, and the rest is what follows them
  generalize hds : cs.takeWhile (fun c => (digitValue radix c).isSome) = ds
  have hpre : ds = cs.take ds.length := hds ▸ List.prefix_iff_eq_take.1 (List.takeWhile_prefix _)
  refine ⟨ds, ?_, fun c hc => ?_⟩
  · calc cs = cs.take ds.length ++ cs.drop ds.length := (List.take_append_drop _ _).symm
      _ = ds ++ cs.drop ds.length := by rw [← hpre]
  · have hmem : c ∈ cs.takeWhile (fun c => (digitValue radix c).isSome) := hds ▸ hc
    have hdigit := List.mem_takeWhile_imp hmem
    exact hdigit

/-- A digit, in any radix, is neither a colon nor an opening bracket. -/
theorem ne_of_digitValue {radix : Nat} {c : Char} (h : (digitValue radix c).isSome) :
    c ≠ ':' ∧ c ≠ '[' := by
  constructor <;> (rintro rfl; simp [digitValue] at h)

/-- An IPv4 address holds neither colons nor brackets. -/
theorem consumes_readIpv4 : Consumes (fun c => c ≠ ':' ∧ c ≠ '[') readIpv4 := by
  have octet := (consumes_readNumber 10 3 255 false).mono fun _ => ne_of_digitValue
  have dot : Consumes (fun c => c ≠ ':' ∧ c ≠ '[') (expect '.') :=
    (consumes_expect '.').mono fun c hc => by subst hc; decide
  unfold readIpv4
  exact (((((octet.bind dot).bind octet).bind dot).bind octet).bind dot).bind octet

/-- The separator before group `i`: nothing before the first group, a colon before the others. -/
theorem eq_of_afterSep {i : Nat} {cs cs' : List Char}
    (h : (if i = 0 then some cs else expect ':' cs) = some cs') :
    cs = (if i = 0 then [] else [':']) ++ cs' := by
  split at h
  · cases h
    simp_all
  · simp_all [eq_of_expect h]

/-- Reading groups from group `i` on takes no `[`, and a colon before every group it reads but
the first: it ends at most two groups past the colons it took (one when it does not start at the
first group), an IPv4 address counting as two groups. -/
theorem readGroups_consumes (limit slots i : Nat) (cs : List Char) :
    ∃ pre, cs = pre ++ (readGroups limit slots i cs).2.2 ∧ '[' ∉ pre ∧
      (readGroups limit slots i cs).1 ≤ i + pre.count ':' + (if i = 0 then 2 else 1) := by
  fun_induction readGroups limit slots i cs with
  | case1 i cs => exact ⟨[], by simp, by simp, by omega⟩
  | case2 slots i cs afterSep asIpv4 rest hipv4 =>
    simp only [asIpv4, afterSep] at hipv4
    split at hipv4
    · obtain ⟨cs', hsep, hv4⟩ := Option.bind_eq_some_iff.1 hipv4
      obtain ⟨q, rfl, hq⟩ := consumes_readIpv4 cs' rest hv4
      -- an IPv4 address takes the place of two groups, after the separator
      have hcolon : ':' ∉ q := fun hm => (hq ':' hm).1 rfl
      have hbracket : '[' ∉ q := fun hm => (hq '[' hm).2 rfl
      refine ⟨(if i = 0 then [] else [':']) ++ q, by simp [eq_of_afterSep hsep], ?_, ?_⟩
      · split <;> simp [hbracket]
      · split <;> simp [List.count_eq_zero.2 hcolon]
    · cases hipv4
  | case3 slots i cs afterSep asIpv4 hipv4 rest hnum ih =>
    simp only [afterSep] at hnum
    obtain ⟨cs', hsep, hgroup⟩ := Option.bind_eq_some_iff.1 hnum
    obtain ⟨q, rfl, hq⟩ := consumes_readNumber 16 4 0xFFFF true cs' rest hgroup
    obtain ⟨pre, hrest, hbracket, hcount⟩ := ih
    generalize readGroups limit slots (i + 1) rest = final at hrest hcount ⊢
    -- a group is hex digits, after the separator
    have hcolon : ':' ∉ q := fun hm => (ne_of_digitValue (hq ':' hm)).1 rfl
    have hqb : '[' ∉ q := fun hm => (ne_of_digitValue (hq '[' hm)).2 rfl
    refine ⟨(if i = 0 then [] else [':']) ++ q ++ pre, ?_, ?_, ?_⟩
    · rw [eq_of_afterSep hsep, hrest]
      simp
    · split <;> simp [hbracket, hqb]
    · split <;> simp [List.count_eq_zero.2 hcolon] at hcount ⊢ <;> omega
  | case4 slots i cs afterSep asIpv4 hipv4 hnum =>
    exact ⟨[], by simp, by simp, by split <;> omega⟩

/-- An IPv6 address holds at least two colons and no `[`. -/
theorem two_colons_of_isAddressChars {cs : List Char} (h : isAddressChars cs = true) :
    2 ≤ cs.count ':' ∧ '[' ∉ cs := by
  unfold isAddressChars at h
  obtain ⟨pre, hcs, hbracket, hcount⟩ := readGroups_consumes 8 8 0 cs
  generalize readGroups 8 8 0 cs = res at h hcs hcount
  obtain ⟨n, b, rest⟩ := res
  split at h
  · -- eight groups and nothing after them: six colons at least, with an IPv4 tail
    rename_i heq
    simp only [Prod.mk.injEq] at heq
    obtain ⟨rfl, -, rfl⟩ := heq
    simp only [List.isEmpty_iff] at h
    subst h
    simp only [List.append_nil] at hcs
    subst hcs
    exact ⟨by simp at hcount; omega, hbracket⟩
  · cases h
  · -- a `::` after the head groups, and the tail groups after it
    rename_i heq
    simp only [Prod.mk.injEq] at heq
    obtain ⟨rfl, -, rfl⟩ := heq
    split at h
    · rename_i tail
      obtain ⟨pre', htail, hbracket', -⟩ := readGroups_consumes (8 - (n + 1)) (8 - (n + 1)) 0 tail
      simp only [List.isEmpty_iff] at h
      rw [h, List.append_nil] at htail
      subst hcs htail
      exact ⟨by simp [List.count_append]; omega, by simp [hbracket, hbracket']⟩
    · cases h

end Ipv6

namespace Address

/-! ## The grammar -/

/-- What may follow a host: nothing, or `:` and a non-empty run of ASCII digits whose value fits
16 bits, which is the port. -/
inductive PortSuffix : List Char → Option UInt16 → Prop
  | none : PortSuffix [] none
  | port {ds : List Char} (hne : ds ≠ []) (hdigits : ∀ c ∈ ds, c.isDigit = true)
      (hbound : digitsValue ds ≤ 65535) : PortSuffix (':' :: ds) (some (digitsValue ds).toUInt16)

/-- A host and what follows it, written out: a host name or IPv4 address, a run of characters
other than `:`, `[` and `]`; or a bracketed host, anything but `]` between `[` and `]`. -/
inductive HostPort : List Char → List Char → Option UInt16 → Prop
  | plain {host t : List Char} {p : Option UInt16} (hne : host ≠ [])
      (hplain : ∀ c ∈ host, c ≠ ':' ∧ c ≠ '[' ∧ c ≠ ']') (ht : PortSuffix t p) :
      HostPort (host ++ t) host p
  | bracketed {host t : List Char} {p : Option UInt16} (hne : host ≠ []) (hclose : ']' ∉ host)
      (ht : PortSuffix t p) : HostPort ('[' :: (host ++ ']' :: t)) host p

/-- The server addresses and what they stand for: an IPv6 address, taken whole with no port, or
a host and port written out. -/
inductive Form : String → Address → Prop
  | ipv6 {s : String} (h : Ipv6.isAddress s = true) : Form s ⟨s, none⟩
  | hostPort {s : String} {host : List Char} {p : Option UInt16} (h : HostPort s.toList host p) :
      Form s ⟨String.ofList host, p⟩

/-! ## Reading a port -/

theorem readPort_eq_nil_iff (t : List Char) (p : Option UInt16) :
    readPort t = (p, []) ↔ PortSuffix t p := by
  constructor
  · -- the reader consumed everything: nothing was there, or a colon and digits that fit
    intro h
    cases t with
    | nil =>
      simp [readPort] at h
      subst h
      exact .none
    | cons c rest =>
      by_cases hc : c = ':'
      · subst hc
        simp only [readPort] at h
        split_ifs at h with hbad
        · simp at h
        · -- the digits run to the end, and their value fits
          simp only [Prod.mk.injEq] at h
          obtain ⟨rfl, hdrop⟩ := h
          have hall := List.dropWhile_eq_nil_iff.1 hdrop
          have htake : rest.takeWhile Char.isDigit = rest := List.takeWhile_eq_self_iff.2 hall
          rw [htake] at hbad ⊢
          simp only [List.isEmpty_iff, not_or, not_lt] at hbad
          exact .port hbad.1 hall hbad.2
      · simp [readPort, hc] at h
  · -- each form of suffix is read whole
    intro h
    cases h with
    | none => rfl
    | port hne hdigits hbound =>
      rename_i ds
      have htake : ds.takeWhile Char.isDigit = ds := List.takeWhile_eq_self_iff.2 hdigits
      have hdrop : ds.dropWhile Char.isDigit = [] := List.dropWhile_eq_nil_iff.2 hdigits
      simp [readPort, htake, hdrop, hne, hbound]

/-- A port suffix starts with the colon that ends a host name, if it is not empty. -/
theorem PortSuffix.head_not_plain {t : List Char} {p : Option UInt16} (h : PortSuffix t p) :
    ∀ c ∈ t.head?, ¬ (c ≠ ':' ∧ c ≠ '[' ∧ c ≠ ']') := by
  cases h <;> simp

/-- A port suffix holds at most one colon. -/
theorem PortSuffix.count_colon_le {t : List Char} {p : Option UInt16} (h : PortSuffix t p) :
    t.count ':' ≤ 1 := by
  cases h with
  | none => simp
  | port hne hdigits hbound =>
    rename_i ds
    have hds : ':' ∉ ds := fun hm => by simpa using hdigits ':' hm
    simp [List.count_eq_zero.2 hds]

/-! ## Reading a host -/

theorem readHost_bracketed {host t : List Char} (hclose : ']' ∉ host) :
    readHost ('[' :: (host ++ ']' :: t)) = (host, t) := by
  have hall : ∀ c ∈ host, decide (c ≠ ']') = true := fun c hc =>
    decide_eq_true fun h => hclose (h ▸ hc)
  have hmem : (host ++ ']' :: t).contains ']' = true := by simp
  rw [readHost, if_pos hmem, List.takeWhile_append_of_pos hall, List.dropWhile_append_of_pos hall]
  simp

theorem readHost_plain {host t : List Char} (hne : host ≠ [])
    (hplain : ∀ c ∈ host, c ≠ ':' ∧ c ≠ '[' ∧ c ≠ ']')
    (ht : ∀ c ∈ t.head?, ¬ (c ≠ ':' ∧ c ≠ '[' ∧ c ≠ ']')) : readHost (host ++ t) = (host, t) := by
  obtain ⟨c, cs, rfl⟩ := List.exists_cons_of_ne_nil hne
  have hc : c ≠ '[' := (hplain c (by simp)).2.1
  have hall : ∀ d ∈ c :: cs, decide (d ≠ ':' ∧ d ≠ '[' ∧ d ≠ ']') = true := fun d hd =>
    decide_eq_true (hplain d hd)
  -- the host stops where `t` starts
  have hstop : t.takeWhile (fun d => decide (d ≠ ':' ∧ d ≠ '[' ∧ d ≠ ']')) = [] ∧
      t.dropWhile (fun d => decide (d ≠ ':' ∧ d ≠ '[' ∧ d ≠ ']')) = t := by
    cases t with
    | nil => simp
    | cons d ds =>
      have hd : decide (d ≠ ':' ∧ d ≠ '[' ∧ d ≠ ']') = false := decide_eq_false (ht d rfl)
      rw [List.takeWhile_cons, List.dropWhile_cons, hd]
      simp
  unfold readHost
  split
  · rename_i heq
    simp only [List.cons_append, List.cons.injEq] at heq
    exact absurd heq.1 hc
  · dsimp only
    rw [List.takeWhile_append_of_pos hall, List.dropWhile_append_of_pos hall, hstop.1, hstop.2,
      List.append_nil]

/-- What reading a host finds: nothing, or a host written out in one of the two forms, with the
rest of the text after it. -/
theorem readHost_spec (cs : List Char) :
    (readHost cs).1 = [] ∨
      (cs = (readHost cs).1 ++ (readHost cs).2 ∧
        ∀ c ∈ (readHost cs).1, c ≠ ':' ∧ c ≠ '[' ∧ c ≠ ']') ∨
      (cs = '[' :: ((readHost cs).1 ++ ']' :: (readHost cs).2) ∧ ']' ∉ (readHost cs).1) := by
  unfold readHost
  split
  · rename_i rest
    split
    · rename_i hm
      refine .inr (.inr ⟨?_, fun hmem => by simpa using List.mem_takeWhile_imp hmem⟩)
      -- the host ends at the first `]`, which starts what is dropped
      have hne : rest.dropWhile (fun c => decide (c ≠ ']')) ≠ [] := fun h => by
        simpa using List.dropWhile_eq_nil_iff.1 h ']' (List.contains_iff_mem.1 hm)
      obtain ⟨d, tail, hdt⟩ := List.exists_cons_of_ne_nil hne
      have hd : d = ']' := by
        have hhead := List.head?_dropWhile_not (fun c => decide (c ≠ ']')) rest
        rw [hdt] at hhead
        simpa using hhead
      have hsplit := @List.takeWhile_append_dropWhile _ (fun c => decide (c ≠ ']')) rest
      rw [hdt, hd] at hsplit
      simp only [hdt, hd, List.drop_one, List.tail_cons]
      exact congrArg (List.cons '[') hsplit.symm
    · exact .inl rfl
  · refine .inr (.inl ⟨List.takeWhile_append_dropWhile.symm, fun c hc => ?_⟩)
    simpa using List.mem_takeWhile_imp hc

/-- Reading a host and then a port takes the whole text, and finds a host, exactly when the text
is a host and port written out. -/
theorem hostPort_iff (cs host : List Char) (p : Option UInt16) :
    HostPort cs host p ↔
      host ≠ [] ∧ (readHost cs).1 = host ∧ readPort (readHost cs).2 = (p, []) := by
  constructor
  · intro h
    cases h with
    | plain hne hplain ht =>
      rw [readHost_plain hne hplain ht.head_not_plain]
      exact ⟨hne, rfl, (readPort_eq_nil_iff _ _).2 ht⟩
    | bracketed hne hclose ht =>
      rw [readHost_bracketed hclose]
      exact ⟨hne, rfl, (readPort_eq_nil_iff _ _).2 ht⟩
  · rintro ⟨hne, rfl, hport⟩
    rcases readHost_spec cs with hnil | ⟨hcs, hplain⟩ | ⟨hcs, hclose⟩
    · exact absurd hnil hne
    · have hhp := HostPort.plain hne hplain ((readPort_eq_nil_iff _ _).1 hport)
      rwa [← hcs] at hhp
    · have hhp := HostPort.bracketed hne hclose ((readPort_eq_nil_iff _ _).1 hport)
      rwa [← hcs] at hhp

/-- A host written out is never an IPv6 address: a host name with its port holds at most one
colon, and a bracketed host starts with `[`. -/
theorem HostPort.not_isAddress {cs host : List Char} {p : Option UInt16} (h : HostPort cs host p) :
    Ipv6.isAddressChars cs = false := by
  refine Bool.eq_false_iff.2 fun hv => ?_
  obtain ⟨hcolons, hbracket⟩ := Ipv6.two_colons_of_isAddressChars hv
  cases h with
  | plain hne hplain ht =>
    have hhost : ':' ∉ host := fun hm => (hplain ':' hm).1 rfl
    have hle := ht.count_colon_le
    simp only [List.count_append, List.count_eq_zero.2 hhost] at hcolons
    omega
  | bracketed => exact hbracket (by simp)

/-! ## Reading an address -/

/-- Past the IPv6 check, `parse` reads a host and a port, then refuses what is left over, then
an empty host. -/
theorem parse_of_not_isAddress {s : String} (hv : Ipv6.isAddress s = false) :
    parse s =
      if !(readPort (readHost s.toList).2).2.isEmpty then
        .error (.trailing (String.ofList (readPort (readHost s.toList).2).2))
      else if (readHost s.toList).1.isEmpty then .error .emptyHost
      else .ok ⟨String.ofList (readHost s.toList).1, (readPort (readHost s.toList).2).1⟩ := by
  simp only [parse, hv, Bool.false_eq_true, ↓reduceIte]

theorem parse_eq_ok_iff (s : String) (a : Address) : parse s = .ok a ↔ Form s a := by
  constructor
  · intro h
    cases hv : Ipv6.isAddress s with
    | true =>
      simp only [parse, hv, ↓reduceIte, Except.ok.injEq] at h
      subst h
      exact .ipv6 hv
    | false =>
      rw [parse_of_not_isAddress hv] at h
      split_ifs at h with hrest hhost
      cases h
      -- nothing is left after the port, and the host is not empty
      have hport : readPort (readHost s.toList).2 = ((readPort (readHost s.toList).2).1, []) :=
        Prod.ext rfl (by simpa using hrest)
      exact .hostPort ((hostPort_iff _ _ _).2 ⟨by simpa using hhost, rfl, hport⟩)
  · intro h
    cases h with
    | ipv6 hv => simp [parse, hv]
    | hostPort hhp =>
      obtain ⟨hne, hhost, hport⟩ := (hostPort_iff _ _ _).1 hhp
      have hv : Ipv6.isAddress s = false := hhp.not_isAddress
      simp [parse, hv, hhost, hport, hne]

/-- `parse` refuses a text for what is left after the host and port, or for an empty host. -/
theorem parse_eq_error {s : String} {e : AddressError} (h : parse s = .error e) :
    (∃ rest, e = .trailing rest) ∨ e = .emptyHost := by
  cases hv : Ipv6.isAddress s with
  | true => simp [parse, hv] at h
  | false =>
    rw [parse_of_not_isAddress hv] at h
    split_ifs at h
    · cases h
      exact .inl ⟨_, rfl⟩
    · cases h
      exact .inr rfl

/-- `parse` accepts exactly the texts of the grammar, giving the host and port the grammar gives
them. Every other text is refused as a host that is not valid, for what is left after the host
and port or for an empty host. -/
theorem parse_accepts_its_grammar (s : String) :
    (∀ a, parse s = .ok a ↔ Form s a) ∧
      ((∀ a, ¬ Form s a) → ∃ e, parse s = .error e ∧
        FsInfo.checkHost s = .error (.invalidHost s e) ∧
        ((∃ rest, e.reason = "unexpected trailing data `" ++ rest ++ "`") ∨
          e.reason = "empty host")) := by
  refine ⟨parse_eq_ok_iff s, fun hnone => ?_⟩
  cases hp : parse s with
  | ok a => exact absurd ((parse_eq_ok_iff s a).1 hp) (hnone a)
  | error e =>
    refine ⟨e, rfl, by unfold FsInfo.checkHost; rw [hp], ?_⟩
    rcases parse_eq_error hp with ⟨rest, rfl⟩ | rfl
    · exact .inl ⟨rest, rfl⟩
    · exact .inr rfl

end Address

end ShareBroker
