import UrsusBoot.Engine.StockBoot
import UrsusBoot.Lib.Overlay

/-!
# The boot arguments of the stock system

`ursusstockboot` hands the vendor's kernel a command line made from the vendor's environment, a
packed list of NUL-terminated strings, and from what it has found in the slots. As in `Lib/Buffer`,
`none` is a read outside a buffer or a loop that does not end.
-/

namespace UrsusBoot

namespace StockBoot

abbrev envSize : ℕ := 0x4000

structure StockEnv where
  buf : Option (List UInt8)
  crcOk : Bool

structure Layout where
  kernelOff : UInt64
  kernelSize : UInt32
  rootfsOff : UInt64
  rootfsSize : UInt32

/-- A `const char *`: into the environment, or to a string of the program's own. -/
inductive CStr
  | env (p : ℕ)
  | own (bs : List UInt8)

open Buffer

def CStr.read (buf : List UInt8) : CStr → Option (List UInt8)
  | .env p => stringAt 0 buf p
  | .own bs => some bs

/-- The entry of `n` bytes at `p` begins with the key and `=`. -/
def isEntryOf (buf key : List UInt8) (p n : ℕ) : Option Bool :=
  if key.length < n then do
    if (← readAt buf p key.length) = key then return (← buf[p + key.length]?) == 0x3d
    else return false
  else return false

/-- The loop of `stock_env_get`, at `p`. -/
def stockEnvLoop (buf key : List UInt8) : ℕ → ℕ → Option (Option ℕ)
  | 0, _ => none
  | k + 1, p =>
    if p < envSize then do
      if (← buf[p]?) = 0 then return none
      let q ← skipWhile buf envSize (· ≠ 0) p
      if q = envSize then return none
      if ← isEntryOf buf key p (q - p) then return some (p + key.length + 1)
      stockEnvLoop buf key k (q + 1)
    else return none

def stockEnvGet (se : StockEnv) (key : String) : Option (Option ℕ) :=
  match se.buf with
  | none => return none
  | some buf => if !se.crcOk then return none else stockEnvLoop buf (asciiBytes key) envSize 4

/-- `append_arg`; the buffer is as long as its capacity. -/
def appendArg (buf dst : List UInt8) (key : String) (val : Option CStr) :
    Option (ℤ × List UInt8) :=
  match val with
  | none => return (0, dst)
  | some s => do
    let v ← s.read buf
    if v = [] then return (0, dst)
    let used := (← stringAt 0 dst 0).length
    if dst.length ≤ used then return (-enospc, dst)
    let text := asciiBytes key ++ [0x3d] ++ v ++ [0x20]
    -- `snprintf` writes what fits, and a NUL
    let dst' := Overlay.write dst used (text.take (dst.length - used - 1) ++ [0])
    return (if dst.length - used ≤ text.length then -enospc else 0, dst')

/-- Argument after argument, until one is refused. -/
def appendArgs (buf : List UInt8) : List (String × Option (Option CStr)) → List UInt8 →
    Option (ℤ × List UInt8)
  | [], dst => return (0, dst)
  | (key, val) :: args, dst => do
    let (ret, dst) ← appendArg buf dst key (← val)
    if ret ≠ 0 then return (-enospc, dst)
    appendArgs buf args dst

def passthrough : List String :=
  ["sdram_conf", "vendor_name", "product_name", "ethaddr", "snmp_sysobjid", "country_code",
    "ether_gpio", "power_gpio", "dsl_gpio", "internet_gpio", "multi_upgrade_gpio", "onu_type",
    "qdma_init", "dram_limit", "serdes_pon", "serdes_ethernet", "serdes_usb1", "board_args"]

/-- `%x` of a number of at most `k` digits. -/
def hexDigits : ℕ → ℕ → List UInt8
  | 0, _ => []
  | k + 1, n => (if n < 16 then [] else hexDigits k (n / 16)) ++
      [UInt8.ofNat (if n % 16 < 10 then 0x30 + n % 16 else 0x57 + n % 16)]

/-- `0x%x,0x%llx,0x%x,0x%llx,0x%x` of the slot that is booted. -/
def bankText (fitSize : ℕ) (layout : Layout) : List UInt8 :=
  asciiBytes "0x" ++ hexDigits 8 (fitSize % 2 ^ 32) ++
    asciiBytes ",0x" ++ hexDigits 16 layout.kernelOff.toNat ++
    asciiBytes ",0x" ++ hexDigits 8 layout.kernelSize.toNat ++
    asciiBytes ",0x" ++ hexDigits 16 layout.rootfsOff.toNat ++
    asciiBytes ",0x" ++ hexDigits 8 layout.rootfsSize.toNat

def tclinuxText (master slave : Slot) (layout : Layout) (bootflag : ℤ) : List UInt8 :=
  if bootflag = 0 then bankText master.fitSize layout ++ asciiBytes ",0x0,0x2000,0x0,0x2000,0x0"
  else asciiBytes "0x0,0x2000,0x0,0x2000,0x0," ++ bankText slave.fitSize layout

/-- The arguments with their values, in order; `tclinux` is a buffer of 256 bytes. -/
def bootargsOf (se : StockEnv) (master slave : Slot) (layout : Layout) (bootflag : ℤ) :
    List (String × Option (Option CStr)) :=
  let get key := (stockEnvGet se key).map fun p => p.map CStr.env
  let own s := some (some (CStr.own (asciiBytes s)))
  passthrough.map (fun key => (key, get key)) ++
    [("root", if bootflag ≠ 0 then own "/dev/mtdblock5 ro"
        else (get "root").map fun v => some (v.getD (.own (asciiBytes "/dev/mtdblock3 ro")))),
      ("console",
        (get "console").map fun v => some (v.getD (.own (asciiBytes "ttyS0,115200n8 earlycon")))),
      ("serdes_wifi1", own "05"), ("serdes_wifi2", own "05"), ("serdes_usb2", own "02"),
      ("bootflag", own (if bootflag ≠ 0 then "1" else "0")),
      ("tclinux_info", some (some (.own ((tclinuxText master slave layout bootflag).take 255))))]

def buildStockBootargs (se : StockEnv) (master slave : Slot) (layout : Layout) (bootflag : ℤ)
    (out : List UInt8) : Option (ℤ × List UInt8) :=
  appendArgs (se.buf.getD []) (bootargsOf se master slave layout bootflag) (out.set 0 0)

/-! ## The environment as a list -/

/-- The entries of a packed list, `acc` being what has been read of the next one. The list ends at
an empty string; what the end of the buffer cuts off is no entry. -/
def envEntriesFrom (acc : List UInt8) : List UInt8 → List (List UInt8)
  | [] => []
  | b :: bs =>
    if b = 0 then if acc = [] then [] else acc :: envEntriesFrom [] bs
    else envEntriesFrom (acc ++ [b]) bs

def envEntries (data : List UInt8) : List (List UInt8) := envEntriesFrom [] data

/-- The value of the first entry `key=value`. -/
def envLookup (key data : List UInt8) : Option (List UInt8) :=
  ((envEntries data).find? fun e => (key ++ [0x3d]).isPrefixOf e).map fun e => e.drop (key.length + 1)

theorem envEntriesFrom_unterminated {xs : List UInt8} (acc : List UInt8) (h : 0 ∉ xs) :
    envEntriesFrom acc xs = [] := by
  induction xs generalizing acc with
  | nil => rfl
  | cons x xs ih =>
    rw [List.mem_cons, not_or] at h
    rw [envEntriesFrom, if_neg (Ne.symm h.1), ih _ h.2]

theorem envEntriesFrom_terminated {xs : List UInt8} (acc rest : List UInt8) (h : 0 ∉ xs) :
    envEntriesFrom acc (xs ++ 0 :: rest) =
      if acc ++ xs = [] then [] else (acc ++ xs) :: envEntries rest := by
  induction xs generalizing acc with
  | nil => simp [envEntriesFrom, envEntries]
  | cons x xs ih =>
    rw [List.mem_cons, not_or] at h
    rw [List.cons_append, envEntriesFrom, if_neg (Ne.symm h.1), ih _ h.2]
    simp

theorem zero_notMem_of_mem_envEntriesFrom {xs acc e : List UInt8} (hacc : 0 ∉ acc)
    (he : e ∈ envEntriesFrom acc xs) : 0 ∉ e := by
  induction xs generalizing acc with
  | nil => simp [envEntriesFrom] at he
  | cons x xs ih =>
    rw [envEntriesFrom] at he
    split_ifs at he with hx hnil
    · simp at he
    · rcases List.mem_cons.1 he with rfl | he
      · exact hacc
      · exact ih (by simp) he
    · exact ih (by simpa using ⟨hacc, Ne.symm hx⟩) he

theorem zero_notMem_of_envLookup {key data v : List UInt8} (h : envLookup key data = some v) :
    0 ∉ v := by
  obtain ⟨e, he, rfl⟩ := Option.map_eq_some_iff.1 h
  have he := zero_notMem_of_mem_envEntriesFrom (by simp) (List.mem_of_find?_eq_some he)
  exact fun h0 => he (List.mem_of_mem_drop h0)

theorem isEntryOf_eq {buf key e rest : List UInt8} {p : ℕ} (h : buf.drop p = e ++ rest) :
    isEntryOf buf key p e.length = some ((key ++ [0x3d]).isPrefixOf e) := by
  have hlen : e.length ≤ buf.length - p := by
    rw [← List.length_drop, h, List.length_append]
    exact Nat.le_add_right _ _
  have hstarts : (key ++ [0x3d]).isPrefixOf e = true ↔
      e.take key.length = key ∧ e[key.length]? = some 0x3d := by
    rw [ List.isPrefixOf_iff_prefix]
    constructor
    · rintro ⟨t, rfl⟩
      simp
    · rintro ⟨htake, hnext⟩
      obtain ⟨hlt, hget⟩ := List.getElem?_eq_some_iff.1 hnext
      refine ⟨e.drop (key.length + 1), ?_⟩
      conv_rhs => rw [← List.take_append_drop key.length e, htake, List.drop_eq_getElem_cons hlt, hget]
      simp
  by_cases hkey : key.length < e.length
  · have hread : readAt buf p key.length = some (e.take key.length) := by
      rw [readAt_of_le (by omega), h, List.take_append_of_le_length hkey.le]
    have hnext : buf[p + key.length]? = e[key.length]? := by
      rw [← List.getElem?_drop, h, List.getElem?_append_left hkey]
    rw [List.getElem?_eq_getElem hkey] at hstarts hnext
    simp only [isEntryOf, if_pos hkey, hread, hnext, Option.bind_eq_bind, Option.bind_some]
    by_cases htake : e.take key.length = key
    · rw [if_pos htake]
      refine congrArg some (Bool.eq_iff_iff.2 ?_)
      simp [hstarts, htake]
    · rw [if_neg htake]
      exact congrArg some (Bool.eq_false_iff.2 fun hp => htake (hstarts.1 hp).1).symm
  · rw [isEntryOf, if_neg hkey]
    refine congrArg some (Bool.eq_false_iff.2 fun hp => hkey ?_).symm
    exact (List.getElem?_eq_some_iff.1 (hstarts.1 hp).2).1

def readPtr (buf : List UInt8) : Option ℕ → Option (Option (List UInt8))
  | none => some none
  | some p => (stringAt 0 buf p).map some

variable {buf : List UInt8}

/-- **The lookup** finds the value of the list's first entry for the key. -/
theorem stockEnvLoop_reads (key : List UInt8) (hbuf : buf.length = envSize) {k p : ℕ}
    (hp : p ≤ envSize) (hk : envSize < p + k) :
    ∃ r, stockEnvLoop buf key k p = some r ∧ readPtr buf r = some (envLookup key (buf.drop p)) := by
  -- on the bound; every round passes an entry and its NUL
  induction k generalizing p with
  | zero => omega
  | succ k ih =>
    by_cases hlt : p < envSize
    · have hin : p < buf.length := by omega
      rw [stockEnvLoop, if_pos hlt, List.getElem?_eq_getElem hin]
      simp only [Option.bind_eq_bind, Option.bind_some]
      by_cases hzero : buf[p] = 0
      · refine ⟨none, by rw [if_pos hzero]; rfl, ?_⟩
        rw [List.drop_eq_getElem_cons hin, hzero]
        rfl
      rw [if_neg hzero]
      obtain ⟨q, hq, hpq, hno, hsplit⟩ := skip_to hin.le
      rw [hbuf] at hq hsplit
      rw [hq]
      simp only [Option.bind_some]
      obtain ⟨rfl, hcut⟩ | ⟨hqe, hsplit⟩ := hsplit
      · refine ⟨none, by rw [if_pos rfl]; rfl, ?_⟩
        rw [hcut, envLookup, envEntries, envEntriesFrom_unterminated _ hno]
        rfl
      rw [if_neg hqe.ne]
      have hlen : (window buf p q).length = q - p := length_window (by omega)
      have hne : window buf p q ≠ [] := by
        intro hnil
        rw [hnil, List.drop_eq_getElem_cons hin] at hsplit
        exact hzero (List.cons.inj hsplit).1
      rw [← hlen, isEntryOf_eq hsplit]
      simp only [Option.bind_some]
      have hentries : envEntries (buf.drop p) = window buf p q :: envEntries (buf.drop (q + 1)) := by
        rw [hsplit, envEntries, envEntriesFrom_terminated _ _ hno, if_neg (by simpa using hne)]
        rfl
      cases hkey : (key ++ [0x3d]).isPrefixOf (window buf p q) with
      | true =>
        refine ⟨some (p + key.length + 1), rfl, ?_⟩
        have hkeylen : key.length + 1 ≤ (window buf p q).length := by
          simpa using ( List.isPrefixOf_iff_prefix.1 hkey).length_le
        have hvalue : buf.drop (p + key.length + 1) =
            (window buf p q).drop (key.length + 1) ++ 0 :: buf.drop (q + 1) := by
          rw [Nat.add_assoc, ← List.drop_drop, hsplit, List.drop_append_of_le_length hkeylen]
        rw [readPtr, stringAt_of_drop hvalue fun h0 => hno (List.mem_of_mem_drop h0), envLookup, hentries,
          List.find?_cons_of_pos hkey]
        rfl
      | false =>
        obtain ⟨r, hr, hread⟩ := ih (p := q + 1) (by omega) (by omega)
        refine ⟨r, hr, ?_⟩
        rw [hread, envLookup, envLookup, hentries, List.find?_cons_of_neg (by simp [hkey])]
    · refine ⟨none, by rw [stockEnvLoop, if_neg hlt]; rfl, ?_⟩
      rw [List.drop_eq_nil_of_le (by omega)]
      rfl

theorem stockEnvGet_reads (hbuf : buf.length = envSize) (key : String) :
    ∃ r, stockEnvGet ⟨some buf, true⟩ key = some r ∧
      readPtr buf r = some (envLookup (asciiBytes key) (buf.drop 4)) :=
  stockEnvLoop_reads (asciiBytes key) hbuf (by decide) (by decide)

/-! ## The command line -/

/-- `key=value` and a space; nothing for an empty value. -/
def argText (key : String) (v : List UInt8) : List UInt8 :=
  if v = [] then [] else asciiBytes key ++ [0x3d] ++ v ++ [0x20]

/-- The arguments and their values, in order, given the environment's data. -/
def bootargValues (data : List UInt8) (master slave : Slot) (layout : Layout) (bootflag : ℤ) :
    List (String × List UInt8) :=
  let get key := envLookup (asciiBytes key) data
  passthrough.map (fun key => (key, (get key).getD [])) ++
    [("root", if bootflag ≠ 0 then asciiBytes "/dev/mtdblock5 ro"
        else (get "root").getD (asciiBytes "/dev/mtdblock3 ro")),
      ("console", (get "console").getD (asciiBytes "ttyS0,115200n8 earlycon")),
      ("serdes_wifi1", asciiBytes "05"), ("serdes_wifi2", asciiBytes "05"),
      ("serdes_usb2", asciiBytes "02"), ("bootflag", asciiBytes (if bootflag ≠ 0 then "1" else "0")),
      ("tclinux_info", tclinuxText master slave layout bootflag)]

def bootargs (data : List UInt8) (master slave : Slot) (layout : Layout) (bootflag : ℤ) :
    List UInt8 :=
  (bootargValues data master slave layout bootflag).flatMap fun a => argText a.1 a.2

/-- The bytes an argument's value has, once it has been looked up. -/
def argValue (buf : List UInt8) (val : Option (Option CStr)) : Option (List UInt8) := do
  match ← val with
  | none => return []
  | some s => s.read buf

variable {v : List UInt8}

section Append

variable {buf text : List UInt8} (rest : List UInt8) (key : String)

variable {val : Option CStr}

theorem appendArg_eq (htext : 0 ∉ text) (hv : v ≠ []) (hval : argValue buf (some val) = some v) :
    appendArg buf (text ++ 0 :: rest) key val =
      some (if rest.length < (argText key v).length then -enospc else 0,
        Overlay.write (text ++ 0 :: rest) text.length ((argText key v).take rest.length ++ [0])) := by
  cases val with
  | none => exact absurd (Option.some.inj hval).symm hv
  | some s =>
    have hread : s.read buf = some v := hval
    have hlen : (text ++ 0 :: rest).length - text.length = rest.length + 1 := by simp
    rw [appendArg, hread]
    simp only [Option.bind_eq_bind, Option.bind_some, stringAt_of_drop (p := 0) rfl htext]
    rw [if_neg hv, if_neg (by simp), hlen, argText, if_neg hv]
    rfl

theorem appendArg_nil (dst : List UInt8) (hval : argValue buf (some val) = some []) :
    appendArg buf dst key val = some (0, dst) := by
  cases val with
  | none => rfl
  | some s =>
    have hread : s.read buf = some [] := hval
    rw [appendArg, hread]
    rfl

theorem appendArg_fits (htext : 0 ∉ text) (hval : argValue buf (some val) = some v)
    (hroom : (argText key v).length ≤ rest.length) :
    appendArg buf (text ++ 0 :: rest) key val =
      some (0, text ++ argText key v ++ 0 :: rest.drop (argText key v).length) := by
  by_cases hv : v = []
  · subst hv
    simp [appendArg_nil key _ hval, argText]
  · rw [appendArg_eq rest key htext hv hval, if_neg (Nat.not_lt.2 hroom), List.take_of_length_le hroom,
      Overlay.write_eq]
    generalize argText key v = new
    simp

theorem appendArg_full (htext : 0 ∉ text) (hval : argValue buf (some val) = some v)
    (hroom : rest.length < (argText key v).length) :
    ∃ dst, appendArg buf (text ++ 0 :: rest) key val = some (-enospc, dst) ∧
      dst.length = (text ++ 0 :: rest).length := by
  have hv : v ≠ [] := by
    rintro rfl
    exact absurd hroom (by simp [argText])
  rw [appendArg_eq rest key htext hv hval, if_pos hroom]
  refine ⟨_, rfl, Overlay.length_write (.inr ?_)⟩
  simp only [List.length_append, List.length_take, List.length_cons, List.length_nil]
  omega

theorem appendArgs_writes {args : List (String × Option (Option CStr))} (htext : 0 ∉ text)
    (hargs : ∀ a ∈ args, ∃ v, argValue buf a.2 = some v ∧ 0 ∉ argText a.1 v) :
    ∃ ret dst, appendArgs buf args (text ++ 0 :: rest) = some (ret, dst) ∧
      dst.length = (text ++ 0 :: rest).length ∧
      let more := args.flatMap fun a => argText a.1 ((argValue buf a.2).getD [])
      (ret = -enospc ∧ rest.length < more.length ∨
        ret = 0 ∧ more.length ≤ rest.length ∧ ∃ rest', dst = text ++ more ++ 0 :: rest') := by
  induction args generalizing text rest with
  | nil => exact ⟨0, _, rfl, rfl, .inr ⟨rfl, Nat.zero_le _, rest, by simp⟩⟩
  | cons a args ih =>
    obtain ⟨key, val⟩ := a
    obtain ⟨v, hv, hno⟩ := hargs _ List.mem_cons_self
    obtain ⟨c, rfl⟩ : ∃ c, val = some c := by
      cases val with
      | none => exact absurd hv nofun
      | some c => exact ⟨c, rfl⟩
    simp only [List.flatMap_cons, hv, Option.getD_some, List.length_append]
    by_cases hroom : (argText key v).length ≤ rest.length
    · have hdst := appendArg_fits rest key htext hv hroom
      have htext' : 0 ∉ text ++ argText key v := by simp [htext, hno]
      obtain ⟨ret, dst, happend, hlen, hend⟩ := ih (rest.drop (argText key v).length) htext'
        fun a ha => hargs a (List.mem_cons_of_mem _ ha)
      refine ⟨ret, dst, ?_, ?_, ?_⟩
      · rw [appendArgs, Option.bind_eq_bind, Option.bind_some, hdst]
        exact happend
      · simp only [hlen, List.length_append, List.length_cons, List.length_drop]
        omega
      · simp only [List.length_drop, List.append_assoc] at hend ⊢
        rcases hend with ⟨hret, hmore⟩ | ⟨hret, hmore, rest', hdst⟩
        · exact .inl ⟨hret, by omega⟩
        · exact .inr ⟨hret, by omega, rest', hdst⟩
    · obtain ⟨dst, hdst, hlen⟩ := appendArg_full rest key htext hv (Nat.lt_of_not_le hroom)
      refine ⟨-enospc, dst, ?_, by rw [hlen, List.length_append], .inl ⟨rfl, by omega⟩⟩
      rw [appendArgs, Option.bind_eq_bind, Option.bind_some, hdst]
      rfl

end Append

theorem argValue_env (hbuf : buf.length = envSize) (key : String) :
    let val := (stockEnvGet ⟨some buf, true⟩ key).map fun p => p.map CStr.env
    let v := envLookup (asciiBytes key) (buf.drop 4)
    argValue buf val = some (v.getD []) ∧
      ∀ d, argValue buf (val.map fun s => some (s.getD (.own d))) = some (v.getD d) := by
  obtain ⟨r, hr, hread⟩ := stockEnvGet_reads hbuf key
  dsimp only
  rw [hr]
  cases r with
  | none =>
    rw [← Option.some.inj hread]
    exact ⟨rfl, fun _ => rfl⟩
  | some p =>
    obtain ⟨v, hv, hlookup⟩ := Option.map_eq_some_iff.1 hread
    rw [← hlookup]
    exact ⟨hv, fun _ => hv⟩

theorem length_hexDigits_le (k n : ℕ) : (hexDigits k n).length ≤ k := by
  induction k generalizing n with
  | zero => exact Nat.le_refl 0
  | succ k ih =>
    rw [hexDigits, List.length_append, List.length_singleton]
    by_cases h : n < 16
    · simp [h]
    · rw [if_neg h]
      exact Nat.add_le_add_right (ih (n / 16)) 1

theorem zero_notMem_hexDigits (k n : ℕ) : 0 ∉ hexDigits k n := by
  induction k generalizing n with
  | zero => exact List.not_mem_nil
  | succ k ih =>
    have hdigit : ∀ d < 16, UInt8.ofNat (if d < 10 then 0x30 + d else 0x57 + d) ≠ 0 := by decide
    have h := (hdigit (n % 16) (Nat.mod_lt n (by decide))).symm
    rw [hexDigits]
    split_ifs at h ⊢ <;> simp_all

theorem length_tclinuxText_le (master slave : Slot) (layout : Layout) (bootflag : ℤ) :
    (tclinuxText master slave layout bootflag).length ≤ 255 := by
  have hbank : ∀ n, (bankText n layout).length ≤ 70 := by
    intro n
    have h₁ := length_hexDigits_le 8 (n % 2 ^ 32)
    have h₂ := length_hexDigits_le 16 layout.kernelOff.toNat
    have h₃ := length_hexDigits_le 8 layout.kernelSize.toNat
    have h₄ := length_hexDigits_le 16 layout.rootfsOff.toNat
    have h₅ := length_hexDigits_le 8 layout.rootfsSize.toNat
    have h0x : (asciiBytes "0x").length = 2 := rfl
    have hsep : (asciiBytes ",0x").length = 3 := rfl
    simp only [bankText, List.length_append, h0x, hsep]
    omega
  have hm := hbank master.fitSize
  have hs := hbank slave.fitSize
  have hrest : (asciiBytes ",0x0,0x2000,0x0,0x2000,0x0").length = 26 := rfl
  have hfirst : (asciiBytes "0x0,0x2000,0x0,0x2000,0x0,").length = 26 := rfl
  unfold tclinuxText
  split_ifs <;> simp only [List.length_append, hrest, hfirst] <;> omega

theorem zero_notMem_argText {key : String} (hkey : 0 ∉ asciiBytes key) (hv : 0 ∉ v) :
    0 ∉ argText key v := by
  unfold argText
  split_ifs
  · simp
  · simp [hkey, hv]

theorem zero_notMem_tclinuxText (master slave : Slot) (layout : Layout) (bootflag : ℤ) :
    0 ∉ tclinuxText master slave layout bootflag := by
  have h0x : 0 ∉ asciiBytes "0x" := by decide
  have hsep : 0 ∉ asciiBytes ",0x" := by decide
  have hbank : ∀ n, 0 ∉ bankText n layout := fun n => by
    simp [bankText, h0x, hsep, zero_notMem_hexDigits]
  have hrest : 0 ∉ asciiBytes ",0x0,0x2000,0x0,0x2000,0x0" := by decide
  have hfirst : 0 ∉ asciiBytes "0x0,0x2000,0x0,0x2000,0x0," := by decide
  unfold tclinuxText
  split_ifs <;> simp [hbank, hrest, hfirst]

theorem zero_notMem_bootargValues (data : List UInt8) (master slave : Slot) (layout : Layout)
    (bootflag : ℤ) :
    ∀ a ∈ bootargValues data master slave layout bootflag, 0 ∉ argText a.1 a.2 := by
  have hget : ∀ key d, 0 ∉ d → 0 ∉ (envLookup key data).getD d := by
    intro key d hd
    cases h : envLookup key data with
    | none => exact hd
    | some v => exact zero_notMem_of_envLookup h
  have hroot : 0 ∉ if bootflag ≠ 0 then asciiBytes "/dev/mtdblock5 ro"
      else (envLookup (asciiBytes "root") data).getD (asciiBytes "/dev/mtdblock3 ro") := by
    split_ifs
    · decide
    · exact hget _ _ (by decide)
  have hflag : 0 ∉ asciiBytes (if bootflag ≠ 0 then "1" else "0") := by split_ifs <;> decide
  have hkeys : ∀ key ∈ passthrough, 0 ∉ asciiBytes key := by decide
  simp only [bootargValues, List.forall_mem_append, List.forall_mem_map, List.forall_mem_cons,
    List.not_mem_nil, false_imp_iff, implies_true, and_true]
  exact ⟨fun key hkey => zero_notMem_argText (hkeys key hkey) (hget _ _ (by simp)),
    zero_notMem_argText (by decide) hroot, zero_notMem_argText (by decide) (hget _ _ (by decide)),
    by decide, by decide, by decide, zero_notMem_argText (by decide) hflag,
    zero_notMem_argText (by decide) (zero_notMem_tclinuxText master slave layout bootflag)⟩

theorem bootargsOf_values (hbuf : buf.length = envSize) (master slave : Slot) (layout : Layout)
    (bootflag : ℤ) :
    (bootargsOf ⟨some buf, true⟩ master slave layout bootflag).map (fun a => (a.1, argValue buf a.2)) =
      (bootargValues (buf.drop 4) master slave layout bootflag).map fun a => (a.1, some a.2) := by
  have htake := List.take_of_length_le (length_tclinuxText_le master slave layout bootflag)
  have hown : ∀ bs, argValue buf (some (some (.own bs))) = some bs := fun _ => rfl
  have hdefault := fun key => (argValue_env hbuf key).2
  simp only [bootargsOf, bootargValues, List.map_append, List.map_map, List.map_cons, List.map_nil,
    htake, hown, hdefault]
  congr 1
  · exact List.map_congr_left fun key _ => congrArg (Prod.mk key) (argValue_env hbuf key).1
  · by_cases hflag : bootflag ≠ 0
    · simp only [if_pos hflag, hown]
    · simp only [if_neg hflag, hdefault]

/-- **The boot arguments are complete or refused.** Whatever the environment holds, `out` receives
all arguments that have a value, with a NUL behind them, or they do not fit it. -/
theorem bootargs_complete (buf : List UInt8) (master slave : Slot) (layout : Layout) (bootflag : ℤ)
    (out : List UInt8) (hbuf : buf.length = envSize) (hout : 0 < out.length) :
    0 ∉ bootargs (buf.drop 4) master slave layout bootflag ∧
    ∃ ret out', buildStockBootargs ⟨some buf, true⟩ master slave layout bootflag out = some (ret, out') ∧
      out'.length = out.length ∧
      (ret = -enospc ∧ out.length ≤ (bootargs (buf.drop 4) master slave layout bootflag).length ∨
        ret = 0 ∧ (bootargs (buf.drop 4) master slave layout bootflag).length < out.length ∧
          ∃ rest, out' = bootargs (buf.drop 4) master slave layout bootflag ++ 0 :: rest) := by
  have hvalues := bootargsOf_values hbuf master slave layout bootflag
  have hnoNul := zero_notMem_bootargValues (buf.drop 4) master slave layout bootflag
  have hargs : ∀ a ∈ bootargsOf ⟨some buf, true⟩ master slave layout bootflag,
      ∃ v, argValue buf a.2 = some v ∧ 0 ∉ argText a.1 v := by
    intro a ha
    have hmem := List.mem_map_of_mem (f := fun a => (a.1, argValue buf a.2)) ha
    rw [hvalues] at hmem
    obtain ⟨⟨key, v⟩, hv, heq⟩ := List.mem_map.1 hmem
    obtain ⟨hkey, hvalue⟩ := Prod.mk.inj heq
    exact ⟨v, hvalue.symm, hkey ▸ hnoNul _ hv⟩
  have htext : (bootargsOf ⟨some buf, true⟩ master slave layout bootflag).flatMap
      (fun a => argText a.1 ((argValue buf a.2).getD [])) =
        bootargs (buf.drop 4) master slave layout bootflag := by
    have h := congrArg (List.flatMap fun a : String × Option (List UInt8) =>
      argText a.1 (a.2.getD [])) hvalues
    rw [List.flatMap_map, List.flatMap_map] at h
    exact h
  obtain ⟨x, rest, rfl⟩ := List.exists_cons_of_length_pos hout
  obtain ⟨ret, out', hrun, hlen, hend⟩ := appendArgs_writes rest List.not_mem_nil hargs
  refine ⟨?_, ret, out', hrun, hlen, ?_⟩
  · intro h0
    obtain ⟨a, ha, hmem⟩ := List.mem_flatMap.1 h0
    exact hnoNul a ha hmem
  · rw [htext] at hend
    rcases hend with ⟨hret, hmore⟩ | ⟨hret, hmore, rest', hout'⟩
    · exact .inl ⟨hret, hmore⟩
    · exact .inr ⟨hret, Nat.lt_succ_of_le hmore, rest', hout'⟩

def smallEnv : List UInt8 :=
  [0, 0, 0, 0] ++ asciiBytes "ethaddr=00:11" ++ List.replicate (envSize - 17) 0

/-- The command line it gives for a slot that holds 16 bytes. -/
def smallLine : List UInt8 :=
  asciiBytes "ethaddr=00:11 root=/dev/mtdblock3 ro console=ttyS0,115200n8 earlycon " ++
    asciiBytes "serdes_wifi1=05 serdes_wifi2=05 serdes_usb2=02 bootflag=0 " ++
    asciiBytes "tclinux_info=0x10,0x4cc4,0x1,0x3af6d8,0x2,0x0,0x2000,0x0,0x2000,0x0 "

theorem bootargs_complete_small :
    ∃ rest, buildStockBootargs ⟨some smallEnv, true⟩ ⟨0, 0, 0, 0, 16, 0⟩ ⟨0, 0, 0, 0, 0, 0⟩
      ⟨0x4cc4, 1, 0x3af6d8, 2⟩ 0 (List.replicate 1536 0xff) = some (0, smallLine ++ 0 :: rest) := by
  have hline : bootargs (smallEnv.drop 4) ⟨0, 0, 0, 0, 16, 0⟩ ⟨0, 0, 0, 0, 0, 0⟩
      ⟨0x4cc4, 1, 0x3af6d8, 2⟩ 0 = smallLine := by decide +kernel
  have hshort : smallLine.length < 1536 := by decide +kernel
  have henv : smallEnv.length = envSize := by
    rw [smallEnv, List.length_append, List.length_append, List.length_replicate]
    rfl
  obtain ⟨-, ret, out, hrun, -, hend⟩ := bootargs_complete smallEnv ⟨0, 0, 0, 0, 16, 0⟩
    ⟨0, 0, 0, 0, 0, 0⟩ ⟨0x4cc4, 1, 0x3af6d8, 2⟩ 0 (List.replicate 1536 0xff)
    henv (by rw [List.length_replicate]; decide)
  rw [hline, List.length_replicate] at hend
  rcases hend with ⟨-, hlong⟩ | ⟨rfl, -, rest, rfl⟩
  · omega
  · exact ⟨rest, hrun⟩

end StockBoot

end UrsusBoot
