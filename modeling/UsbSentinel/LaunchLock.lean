import UsbSentinel.FileLock
import UsbSentinel.MountInfo
import UsbSentinel.WebLaunch

/-! The lock that keeps the program to one server. A launch that is turned away reads the address
of the running server from the lock file and opens that instead. Launches, their crashes and the
browsers they start interleave at every system call. -/
namespace UsbSentinel.Launch
open ByteString FileLock Relation UsbSentinel.Http UsbSentinel.Web

/-! ### The lock file -/

abbrev Address := ℕ × Bytes

/-- A port, and a token as `generate_token` makes it. -/
def IsAddress (address : Address) : Prop :=
  0 < address.1 ∧ address.1 < 65536 ∧
    ∃ raw : Bytes, raw.length = 16 ∧ address.2 = generateToken raw

/-- What `write_lock_file_contents` prints. -/
def lockLine (address : Address) : Bytes := decimal address.1 ++ ascii " " ++ address.2 ++ [10]

/-- The address that a launch which was turned away finds, if `main` can use it. -/
def readAddress : Option Bytes → Option Address
  | none => none
  | some text =>
    match DeviceLinux.scanUnsigned text with
    | none => none
    | some (port, rest) =>
      match scanWord 399 rest with
      | none => none
      | some (word, _) =>
        let existingPort := port % 2 ^ 16
        let existingToken := cut 33 (cstr word)
        if existingPort ≠ 0 ∧ existingToken ≠ [] then some (existingPort, existingToken) else none

/-- Writing at the start of a file. -/
def overwrite (data : Bytes) (file : Option Bytes) : Option Bytes :=
  some (data ++ (file.getD []).drop data.length)

/-! ### Launches -/

/-- How far a launch has come in `main`. -/
inductive Phase
  | starting
  | opened
  | refused
  /-- It was turned away, and ends with a URL or a complaint. -/
  | told (known : Option Address)
  | owner
  | listening
  | emptied
  /-- `announced` says if the whole line was written. -/
  | serving (announced : Bool)
  | ended
  deriving DecidableEq, Repr

/-- `acquire_single_instance_lock` has let the launch go on. -/
def Phase.Runs : Phase → Prop
  | .owner | .listening | .emptied | .serving _ => True
  | _ => False

/-- The launch may have got its address. -/
def Phase.Past : Phase → Prop
  | .listening | .emptied | .serving _ | .ended => True
  | _ => False

inductive Process
  | server (launch : ℕ)
  | browser (launch : ℕ)
  deriving DecidableEq, Repr

def Process.launch : Process → ℕ
  | .server i => i
  | .browser i => i

/-- `address` is kept after a launch has ended, and so is what each launch `heard` from the lock
file. -/
structure System where
  file : Option Bytes := none
  lock : Lock ℕ Process := {}
  phase : ℕ → Phase := fun _ => .starting
  address : ℕ → Option Address := fun _ => none
  heard : List (ℕ × Address) := []

namespace System

def moved (s : System) (i : ℕ) (phase : Phase) : System :=
  { s with phase := Function.update s.phase i phase }

/-- A launch that was turned away has read the lock file. -/
def hears (s : System) (i : ℕ) (known : Option Address) : System :=
  { s with heard := known.toList.map (Prod.mk i) ++ s.heard }

/-- An address that a new server gets: no other one listens at that port. -/
def Fresh (s : System) (address : Address) : Prop :=
  IsAddress address ∧
    ∀ j other, (s.phase j).Runs → s.address j = some other → other.1 ≠ address.1

end System

open Function in
/-- One system call of a launch, or one event outside of it. -/
inductive Step (s : System) : System → Prop
  | openFile {i} (h : s.phase i = .starting) :
      Step s { s.moved i .opened with file := some (s.file.getD []) }
  | acquire {i l} (h : s.phase i = .opened) (hl : s.lock.acquire i (.server i) = some l) :
      Step s { s.moved i .owner with lock := l }
  | refuse {i} (h : s.phase i = .opened) (hl : s.lock.acquire i (.server i) = none) :
      Step s (s.moved i .refused)
  | read {i} (h : s.phase i = .refused) :
      Step s ((s.hears i (readAddress s.file)).moved i (.told (readAddress s.file)))
  | readFails {i} (h : s.phase i = .refused) : Step s (s.moved i (.told none))
  | listen {i address} (h : s.phase i = .owner) (hfresh : s.Fresh address) :
      Step s { s.moved i .listening with address := update s.address i (some address) }
  | empty {i} (h : s.phase i = .listening) : Step s { s.moved i .emptied with file := some [] }
  | emptyFails {i} (h : s.phase i = .listening) : Step s (s.moved i (.serving false))
  /-- A disk may take only so many bytes of the line. -/
  | write {i address} (taken : ℕ) (h : s.phase i = .emptied) (ha : s.address i = some address) :
      Step s { s.moved i (.serving (decide ((lockLine address).length ≤ taken))) with
        file := overwrite ((lockLine address).take taken) s.file }
  | browse {i announced} (h : s.phase i = .serving announced) :
      Step s { s with lock := s.lock.fork (.server i) (.browser i) }
  | browserEnds {i} : Step s { s with lock := s.lock.close (.browser i) }
  /-- A failure, a signal or a crash, at any time. -/
  | ends {i} : Step s { s.moved i .ended with lock := s.lock.close (.server i) }

/-- A launch that cannot open the lock file goes on as if it had the lock. -/
inductive AnyStep (s : System) : System → Prop
  | step {t} (h : Step s t) : AnyStep s t
  | openFails {i} (h : s.phase i = .starting) : AnyStep s (s.moved i .owner)

/-! ### Reading the lock file -/

/-- Digits alone are no address. -/
lemma readAddress_digits {digits : Bytes} (h : ∀ c ∈ digits, SignatureList.isDecimal c = true) :
    readAddress (some digits) = none := by
  by_cases hne : digits = []
  · rw [hne]
    rfl
  · obtain ⟨n, hscan⟩ := DeviceLinux.scanUnsigned_digits hne h
    simp only [readAddress, hscan, scanWord_nil]

lemma scanWord_plain {word : Bytes} (hplain : ∀ c ∈ word, isWhite c = false)
    (hlength : word.length ≤ 399) {tail : Bytes} (htail : ∀ c ∈ tail, isWhite c = true) :
    scanWord 399 (32 :: (word ++ tail)) = if word = [] then none else some (word, tail) := by
  rw [scanWord_blank (by decide)]
  cases word with
  | nil =>
    rw [List.nil_append, if_pos rfl]
    unfold scanWord
    simp [List.dropWhile_eq_nil_iff.mpr htail]
  | cons c rest =>
    have hstart : (c :: rest ++ tail).dropWhile isWhite = c :: rest ++ tail :=
      List.dropWhile_cons_of_neg (by simp [hplain c (List.mem_cons_self ..)])
    have hnone : tail.takeWhile (fun c => !isWhite c) = [] := by
      cases tail with
      | nil => rfl
      | cons d tail =>
        exact List.takeWhile_cons_of_neg (by simp [htail d (List.mem_cons_self ..)])
    have hword : (c :: rest ++ tail).takeWhile (fun c => !isWhite c) = c :: rest := by
      rw [List.takeWhile_append_of_pos fun d hd => by simp [hplain d hd], hnone, List.append_nil]
    unfold scanWord
    simp only [hstart, hword, List.take_of_length_le hlength, List.drop_left]

lemma readAddress_word {port : ℕ} (hpos : 0 < port) (hport : port < 65536) {word : Bytes}
    (hsafe : ∀ c ∈ word, Store.isSafe c = true) (hlength : word.length ≤ 32) {tail : Bytes}
    (htail : ∀ c ∈ tail, isWhite c = true) :
    readAddress (some (decimal port ++ 32 :: (word ++ tail))) =
      if word = [] then none else some (port, word) := by
  have hplain : ∀ c ∈ word, isWhite c = false ∧ c ≠ 0 := fun c hc =>
    ⟨(isQueryByte_plain c (safe_ne c (hsafe c hc)).1).1,
      (isQueryByte_plain c (safe_ne c (hsafe c hc)).1).2.2.1⟩
  have hkept : cut 33 (cstr word) = word := by
    rw [cstr_eq_self fun h => (hplain 0 h).2 rfl, cut_eq_self (by omega)]
  have hblank : ∀ c ∈ (32 :: (word ++ tail)).head?, SignatureList.isDecimal c = false := by
    intro c hc
    obtain rfl := Option.some.inj hc
    rfl
  simp only [readAddress, DeviceLinux.scanUnsigned_decimal (show port < 2 ^ 32 by omega) hblank,
    scanWord_plain (fun c hc => (hplain c hc).1) (show word.length ≤ 399 by omega) htail]
  by_cases hnil : word = []
  · rw [if_pos hnil, if_pos hnil]
  · rw [if_neg hnil, if_neg hnil]
    simp only [hkept, show port % 2 ^ 16 = port from Nat.mod_eq_of_lt hport]
    rw [if_pos ⟨by omega, hnil⟩]

lemma IsAddress.token {address : Address} (h : IsAddress address) :
    address.2.length = 32 ∧ ∀ c ∈ address.2, Store.isSafe c = true := by
  obtain ⟨_, _, raw, hraw, htoken⟩ := h
  rw [htoken]
  refine ⟨?_, generateToken_safe raw⟩
  rw [generateToken_length, hraw]

lemma readAddress_line {address : Address} (h : IsAddress address) :
    readAddress (some (lockLine address)) = some address := by
  obtain ⟨hlength, hsafe⟩ := h.token
  have hline : lockLine address = decimal address.1 ++ 32 :: (address.2 ++ [10]) := by
    simp [lockLine, ascii]
  have hne : address.2 ≠ [] := fun hnil => by simp [hnil] at hlength
  have hend : ∀ c ∈ ([10] : Bytes), isWhite c = true := by
    intro c hc
    obtain rfl := List.mem_singleton.mp hc
    rfl
  rw [hline, readAddress_word h.1 h.2.1 hsafe hlength.le hend, if_neg hne]

/-- Whatever front of a line is read, the port is right and the token is a front of it. -/
lemma readAddress_front {address known : Address} (h : IsAddress address) {taken : ℕ}
    (hread : readAddress (some ((lockLine address).take taken)) = some known) :
    known.1 = address.1 ∧ known.2 ≠ [] ∧ known.2 <+: address.2 := by
  obtain ⟨hlength, hsafe⟩ := h.token
  have hline : lockLine address = decimal address.1 ++ 32 :: (address.2 ++ [10]) := by
    simp [lockLine, ascii]
  rw [hline, List.take_append] at hread
  cases hmore : taken - (decimal address.1).length with
  | zero =>
    rw [hmore, List.take_zero, List.append_nil, readAddress_digits] at hread
    · cases hread
    · exact fun c hc => DeviceLinux.isDecimal_decimal (List.mem_of_mem_take hc)
  | succ m =>
    have hword : ∀ c ∈ address.2.take m, Store.isSafe c = true :=
      fun c hc => hsafe c (List.mem_of_mem_take hc)
    have hend : ∀ c ∈ ([10] : Bytes).take (m - address.2.length), isWhite c = true := by
      intro c hc
      obtain rfl := List.mem_singleton.mp (List.mem_of_mem_take hc)
      rfl
    have hshort : (address.2.take m).length ≤ 32 := (List.length_take_le' _ _).trans hlength.le
    rw [hmore, List.take_of_length_le (by omega), List.take_succ_cons, List.take_append,
      readAddress_word h.1 h.2.1 hword hshort hend] at hread
    split_ifs at hread with hnil
    obtain rfl := Option.some.inj hread
    exact ⟨rfl, hnil, List.take_prefix _ _⟩

/-! ### The invariant -/

@[simp] lemma System.moved_self (s : System) (i : ℕ) (phase : Phase) :
    (s.moved i phase).phase i = phase := Function.update_self ..

lemma System.moved_other (s : System) {i j : ℕ} (h : j ≠ i) (phase : Phase) :
    (s.moved i phase).phase j = s.phase j := Function.update_of_ne h ..

/-- What is true of the other launches, and of the phase that is moved to. -/
lemma System.moved_all {s : System} {i : ℕ} {phase : Phase} {P : ℕ → Phase → Prop}
    (hself : P i phase) (hother : ∀ j, j ≠ i → P j (s.phase j)) (j : ℕ) :
    P j ((s.moved i phase).phase j) := by
  by_cases hj : j = i
  · rw [hj, System.moved_self]
    exact hself
  · rw [System.moved_other s hj]
    exact hother j hj

/-- A launch that runs holds the lock, and so does nobody else but what it started. -/
structure Exclusive (s : System) : Prop where
  shared : Shared Process.launch s.lock
  running : ∀ i, (s.phase i).Runs → .server i ∈ s.lock.holders

/-- Addresses are those of launches that came so far, and so is what others were told. -/
structure Recorded (s : System) : Prop where
  past : ∀ i, s.address i ≠ none → (s.phase i).Past
  addresses : ∀ i address, s.address i = some address → IsAddress address
  content : ∀ text, s.file = some text → text = [] ∨
    ∃ i address taken, s.address i = some address ∧ text = (lockLine address).take taken
  told : ∀ i known, s.phase i = .told (some known) → (i, known) ∈ s.heard
  heard : ∀ i known, (i, known) ∈ s.heard → ∃ j address, j ≠ i ∧ s.address j = some address ∧
    known.1 = address.1 ∧ known.2 ≠ [] ∧ known.2 <+: address.2

/-- What the running launch has written is what the file holds. -/
structure Written (s : System) : Prop where
  emptied : ∀ i, s.phase i = .emptied → s.file = some []
  announced : ∀ i, s.phase i = .serving true →
    ∃ address, s.address i = some address ∧ s.file = some (lockLine address)

structure Invariant (s : System) : Prop where
  exclusive : Exclusive s
  recorded : Recorded s
  written : Written s

lemma Exclusive.unique {s : System} (h : Exclusive s) {i j : ℕ} (hi : (s.phase i).Runs)
    (hj : (s.phase j).Runs) : i = j :=
  h.shared.unique (h.running i hi) (h.running j hj)

lemma Exclusive.of_phase {s t : System} (h : Exclusive s) (hlock : t.lock = s.lock)
    (hruns : ∀ i, (t.phase i).Runs → (s.phase i).Runs) : Exclusive t where
  shared := hlock ▸ h.shared
  running i hi := hlock ▸ h.running i (hruns i hi)

lemma Exclusive.step {s t : System} (h : Exclusive s) (hstep : Step s t) : Exclusive t := by
  have hidle : ∀ {i : ℕ} {phase : Phase}, ¬ phase.Runs →
      ∀ j, ((s.moved i phase).phase j).Runs → (s.phase j).Runs := by
    intro i phase hphase j
    exact System.moved_all (P := fun j phase => phase.Runs → (s.phase j).Runs)
      (fun hruns => absurd hruns hphase) (fun j _ hruns => hruns) j
  have hgoes : ∀ {i : ℕ} {phase : Phase}, (s.phase i).Runs →
      ∀ j, ((s.moved i phase).phase j).Runs → (s.phase j).Runs := by
    intro i phase hphase j
    exact System.moved_all (P := fun j phase => phase.Runs → (s.phase j).Runs)
      (fun _ => hphase) (fun j _ hruns => hruns) j
  cases hstep with
  | openFile _ => exact h.of_phase rfl (hidle id)
  | @acquire i l _ hl =>
    obtain ⟨hfree, hheld⟩ := Lock.acquire_some.mp hl
    have hshared : Shared Process.launch l := Shared.acquire (p := .server i) hl
    refine ⟨hshared, fun j hj => ?_⟩
    by_cases hji : j = i
    · rw [hji, hheld]
      exact List.mem_singleton_self _
    · have hruns : (s.phase j).Runs := by
        rwa [← System.moved_other s hji .owner]
      have hheld := h.running j hruns
      rw [hfree] at hheld
      cases hheld
  | refuse _ _ => exact h.of_phase rfl (hidle id)
  | read _ => exact h.of_phase rfl (hidle id)
  | readFails _ => exact h.of_phase rfl (hidle id)
  | listen hi _ => exact h.of_phase rfl (hgoes (hi ▸ trivial))
  | empty hi => exact h.of_phase rfl (hgoes (hi ▸ trivial))
  | emptyFails hi => exact h.of_phase rfl (hgoes (hi ▸ trivial))
  | write _ hi _ => exact h.of_phase rfl (hgoes (hi ▸ trivial))
  | browse _ =>
    exact ⟨h.shared.fork rfl, fun j hj => Lock.mem_fork.mpr (.inl (h.running j hj))⟩
  | browserEnds =>
    refine ⟨h.shared.close _, fun j hj => Lock.mem_close.mpr ⟨h.running j hj, ?_⟩⟩
    exact Process.noConfusion
  | @ends i =>
    refine ⟨h.shared.close _, fun j hj => Lock.mem_close.mpr ⟨?_, ?_⟩⟩
    · exact h.running j (hidle id j hj)
    · rintro hsame
      obtain rfl := Process.server.inj hsame
      rw [show ({ s.moved j .ended with lock := s.lock.close (.server j) } : System).phase j =
        .ended from System.moved_self ..] at hj
      exact hj

/-- What is read is an address of a launch, or a front of one. -/
lemma Recorded.reads {s : System} (h : Recorded s) {known : Address}
    (hread : readAddress s.file = some known) : ∃ j address, s.address j = some address ∧
      known.1 = address.1 ∧ known.2 ≠ [] ∧ known.2 <+: address.2 := by
  cases hfile : s.file with
  | none =>
    rw [hfile] at hread
    cases hread
  | some text =>
    rw [hfile] at hread
    rcases h.content text hfile with rfl | ⟨j, address, taken, hj, rfl⟩
    · cases hread
    · exact ⟨j, address, hj, readAddress_front (h.addresses j address hj) hread⟩

lemma Recorded.lock {s : System} (h : Recorded s) (lock : Lock ℕ Process) :
    Recorded { s with lock } := ⟨h.past, h.addresses, h.content, h.told, h.heard⟩

lemma Recorded.file {s : System} (h : Recorded s) {file : Option Bytes}
    (hfile : ∀ text, file = some text → text = [] ∨ ∃ i address taken,
      s.address i = some address ∧ text = (lockLine address).take taken) :
    Recorded { s with file } := ⟨h.past, h.addresses, hfile, h.told, h.heard⟩

/-- A launch without an address hears of another one. -/
lemma Recorded.hears {s : System} (h : Recorded s) {i : ℕ} (hnone : s.address i = none) :
    Recorded (s.hears i (readAddress s.file)) where
  past := h.past
  addresses := h.addresses
  content := h.content
  told j known hj := List.mem_append_right _ (h.told j known hj)
  heard j known hknown := by
    rcases List.mem_append.mp hknown with hnew | hold
    · obtain ⟨read, hread, hpair⟩ := List.mem_map.mp hnew
      obtain ⟨rfl, rfl⟩ := Prod.mk.inj hpair
      obtain ⟨k, address, hk, hfront⟩ := h.reads (Option.mem_toList.mp hread)
      refine ⟨k, address, ?_, hk, hfront⟩
      rintro rfl
      rw [hnone] at hk
      cases hk
    · exact h.heard j known hold

/-- A launch that goes on has heard what it is told, if anything. -/
lemma Recorded.moved {s : System} (h : Recorded s) {i : ℕ} {phase : Phase}
    (hpast : (s.phase i).Past → phase.Past)
    (htold : ∀ known, phase = .told (some known) → (i, known) ∈ s.heard) :
    Recorded (s.moved i phase) where
  past := by
    refine System.moved_all (P := fun j phase => s.address j ≠ none → phase.Past) ?_ ?_
    · exact fun hi => hpast (h.past i hi)
    · exact fun j _ hj => h.past j hj
  addresses := h.addresses
  content := h.content
  told := by
    refine System.moved_all (P := fun j phase => ∀ known, phase = .told (some known) →
      (j, known) ∈ s.heard) htold ?_
    exact fun j _ known hj => h.told j known hj
  heard := h.heard

/-- A launch with no address yet gets one. -/
lemma Recorded.addressed {s : System} (h : Recorded s) {i : ℕ} {address : Address}
    (hnone : s.address i = none) (hpast : (s.phase i).Past) (haddress : IsAddress address) :
    Recorded { s with address := Function.update s.address i (some address) } := by
  have hkept : ∀ j other, s.address j = some other →
      Function.update s.address i (some address) j = some other := by
    intro j other hj
    rw [Function.update_of_ne, hj]
    rintro rfl
    rw [hnone] at hj
    cases hj
  refine ⟨fun j hj => ?_, fun j other hj => ?_, fun text htext => ?_, h.told,
    fun j known hj => ?_⟩
  · by_cases hji : j = i
    · exact hji ▸ hpast
    · exact h.past j (by simpa [Function.update_of_ne hji] using hj)
  · by_cases hji : j = i
    · have hself : Function.update s.address i (some address) i = some other := hji ▸ hj
      rw [Function.update_self] at hself
      exact Option.some.inj hself ▸ haddress
    · exact h.addresses j other (by simpa [Function.update_of_ne hji] using hj)
  · refine (h.content text htext).imp_right ?_
    rintro ⟨j, other, taken, hj, htaken⟩
    exact ⟨j, other, taken, hkept j other hj, htaken⟩
  · obtain ⟨k, other, hne, hk, hfront⟩ := h.heard j known hj
    exact ⟨k, other, hne, hkept k other hk, hfront⟩

/-- A launch that has not come past the lock has no address. -/
lemma Recorded.unaddressed {s : System} (h : Recorded s) {i : ℕ} (hi : ¬ (s.phase i).Past) :
    s.address i = none := by
  by_contra hsome
  exact hi (h.past i hsome)

lemma Recorded.step {s t : System} (h : Recorded s) (hwritten : Written s) (hstep : Step s t) :
    Recorded t := by
  cases hstep with
  | @openFile i hi =>
    have hmoved : Recorded (s.moved i .opened) := h.moved (by rw [hi]; exact id) (by simp)
    refine hmoved.file fun text htext => ?_
    obtain rfl := Option.some.inj htext
    cases hfile : s.file with
    | none => exact .inl rfl
    | some text => exact h.content text hfile
  | @acquire i l hi _ =>
    have hmoved : Recorded (s.moved i .owner) := h.moved (by rw [hi]; exact id) (by simp)
    exact hmoved.lock l
  | refuse hi _ => exact h.moved (by rw [hi]; exact id) (by simp)
  | @read i hi =>
    have hheard : Recorded (s.hears i (readAddress s.file)) :=
      h.hears (h.unaddressed (by rw [hi]; exact id))
    refine hheard.moved (fun hpast => ?_) fun known hknown => ?_
    · rw [show (s.hears i (readAddress s.file)).phase i = .refused from hi] at hpast
      exact hpast.elim
    · refine List.mem_append_left _ (List.mem_map.mpr ⟨known, ?_, rfl⟩)
      exact Option.mem_toList.mpr (Phase.told.inj hknown)
  | readFails hi => exact h.moved (by rw [hi]; exact id) (by simp)
  | @listen i address hi hfresh =>
    have hnone : s.address i = none := h.unaddressed (by rw [hi]; exact id)
    have hmoved : Recorded (s.moved i .listening) := h.moved (fun _ => trivial) (by simp)
    exact hmoved.addressed hnone (by rw [System.moved_self]; trivial) hfresh.1
  | @empty i hi =>
    have hmoved : Recorded (s.moved i .emptied) := h.moved (fun _ => trivial) (by simp)
    refine hmoved.file fun text htext => ?_
    obtain rfl := Option.some.inj htext
    exact .inl rfl
  | emptyFails hi => exact h.moved (fun _ => trivial) (by simp)
  | @write i address taken hi ha =>
    have hmoved : Recorded (s.moved i (.serving (decide ((lockLine address).length ≤ taken)))) :=
      h.moved (fun _ => trivial) (by simp)
    refine hmoved.file fun text htext => ?_
    rw [overwrite, hwritten.emptied i hi] at htext
    obtain rfl := Option.some.inj htext
    exact .inr ⟨i, address, taken, ha, by simp⟩
  | browse _ => exact h.lock _
  | browserEnds => exact h.lock _
  | @ends i =>
    have hmoved : Recorded (s.moved i .ended) := h.moved (fun _ => trivial) (by simp)
    exact hmoved.lock _

lemma Written.lock {s : System} (h : Written s) (lock : Lock ℕ Process) :
    Written { s with lock } := ⟨h.emptied, h.announced⟩

lemma Written.hears {s : System} (h : Written s) (i : ℕ) (known : Option Address) :
    Written (s.hears i known) := ⟨h.emptied, h.announced⟩

/-- A launch goes on without the file. -/
lemma Written.moved {s : System} (h : Written s) {i : ℕ} {phase : Phase}
    (hemptied : phase ≠ .emptied) (hannounced : phase ≠ .serving true) :
    Written (s.moved i phase) where
  emptied := System.moved_all (P := fun _ phase => phase = .emptied → s.file = some [])
    (fun hphase => absurd hphase hemptied) fun j _ hj => h.emptied j hj
  announced := System.moved_all (P := fun j phase => phase = .serving true →
      ∃ address, s.address j = some address ∧ s.file = some (lockLine address))
    (fun hphase => absurd hphase hannounced) fun j _ hj => h.announced j hj

/-- The one launch that runs may do with the file what its phase says. -/
lemma Written.runs {s : System} (h : Exclusive s) {i : ℕ} {phase : Phase} {file : Option Bytes}
    (hi : (s.phase i).Runs) (hemptied : phase = .emptied → file = some [])
    (hannounced : phase = .serving true →
      ∃ address, s.address i = some address ∧ file = some (lockLine address)) :
    Written { s.moved i phase with file } where
  emptied := System.moved_all (P := fun _ phase => phase = .emptied → file = some []) hemptied
    fun _ hji hj => absurd (h.unique (hj ▸ trivial) hi) hji
  announced := System.moved_all (P := fun j phase => phase = .serving true →
      ∃ address, s.address j = some address ∧ file = some (lockLine address)) hannounced
    fun _ hji hj => absurd (h.unique (hj ▸ trivial) hi) hji

lemma Written.step {s t : System} (h : Written s) (hexclusive : Exclusive s) (hstep : Step s t) :
    Written t := by
  cases hstep with
  | @openFile i hi =>
    have hmoved : Written (s.moved i .opened) := h.moved (by simp) (by simp)
    refine ⟨fun j hj => ?_, fun j hj => ?_⟩
    · have hempty := hmoved.emptied j hj
      change s.file = some [] at hempty
      rw [hempty]
      rfl
    · obtain ⟨address, haddress, hline⟩ := hmoved.announced j hj
      change s.file = some (lockLine address) at hline
      refine ⟨address, haddress, ?_⟩
      rw [hline]
      rfl
  | @acquire i l _ _ =>
    have hmoved : Written (s.moved i .owner) := h.moved (by simp) (by simp)
    exact hmoved.lock l
  | refuse _ _ => exact h.moved (by simp) (by simp)
  | read _ => exact (h.hears _ _).moved (by simp) (by simp)
  | readFails _ => exact h.moved (by simp) (by simp)
  | @listen i address hi hfresh =>
    have hmoved : Written (s.moved i .listening) := h.moved (by simp) (by simp)
    refine ⟨hmoved.emptied, fun j hj => ?_⟩
    obtain ⟨other, hother, hline⟩ := hmoved.announced j hj
    have hji : j ≠ i := by
      rintro rfl
      rw [show ({ s.moved j .listening with address := _ } : System).phase j = .listening from
        System.moved_self ..] at hj
      cases hj
    exact ⟨other, by rw [← hother]; exact Function.update_of_ne hji .., hline⟩
  | empty hi => exact Written.runs hexclusive (hi ▸ trivial) (fun _ => rfl) (by simp)
  | emptyFails _ => exact h.moved (by simp) (by simp)
  | @write i address taken hi ha =>
    refine Written.runs hexclusive (hi ▸ trivial) (by simp) fun hwhole => ?_
    have hlength : (lockLine address).length ≤ taken := by simpa using hwhole
    refine ⟨address, ha, ?_⟩
    rw [List.take_of_length_le hlength, overwrite, h.emptied i hi]
    simp
  | browse _ => exact h.lock _
  | browserEnds => exact h.lock _
  | @ends i =>
    have hmoved : Written (s.moved i .ended) := h.moved (by simp) (by simp)
    exact hmoved.lock _

lemma Invariant.step {s t : System} (h : Invariant s) (hstep : Step s t) : Invariant t where
  exclusive := h.exclusive.step hstep
  recorded := h.recorded.step h.written hstep
  written := h.written.step h.exclusive hstep

lemma invariant_start : Invariant {} := by
  have hphase : ∀ i, ({} : System).phase i = .starting := fun _ => rfl
  have hnone : ∀ i, ({} : System).address i = none := fun _ => rfl
  refine ⟨⟨fun p hp => ?_, fun i hi => ?_⟩, ⟨fun i hi => ?_, fun i address hi => ?_,
    fun text htext => ?_, fun i known hi => ?_, fun i known hi => ?_⟩,
    ⟨fun i hi => ?_, fun i hi => ?_⟩⟩
  · cases hp
  · rw [hphase] at hi
    exact hi.elim
  · exact absurd (hnone i) hi
  · cases (hnone i).symm.trans hi
  · cases htext
  · cases (hphase i).symm.trans hi
  · cases hi
  · cases (hphase i).symm.trans hi
  · cases (hphase i).symm.trans hi

lemma invariant_of_run {s t : System} (h : Invariant s) (hrun : ReflTransGen Step s t) :
    Invariant t := by
  induction hrun with
  | refl => exact h
  | tail _ hstep ih => exact ih.step hstep

/-! ### Runs -/

/-- What holds between two system calls of whatever launches. -/
structure Consistent (s : System) : Prop where
  /-- One launch at most has been let through and has not ended. -/
  single : ∀ i j, (s.phase i).Runs → (s.phase j).Runs → i = j
  /-- A browser that has outlived its server keeps every other launch out. -/
  lingering : ∀ i j, .browser j ∈ s.lock.holders → (s.phase i).Runs → i = j
  /-- A URL that a launch prints when it is turned away has the port of another launch, and a
  token that is that launch's, or was not written to its end. -/
  told : ∀ i known, s.phase i = .told (some known) → ∃ j address, j ≠ i ∧
    s.address j = some address ∧ known.1 = address.1 ∧ known.2 ≠ [] ∧ known.2 <+: address.2
  /-- And so has every URL that a launch was ever given, whatever became of the two since. -/
  heard : ∀ i known, (i, known) ∈ s.heard → ∃ j address, j ≠ i ∧
    s.address j = some address ∧ known.1 = address.1 ∧ known.2 ≠ [] ∧ known.2 <+: address.2

lemma Invariant.consistent {s : System} (h : Invariant s) : Consistent s where
  single _ _ hi hj := h.exclusive.unique hi hj
  lingering i _ hj hi := h.exclusive.shared.unique (h.exclusive.running i hi) hj
  told i known hi := h.recorded.heard i known (h.recorded.told i known hi)
  heard := h.recorded.heard

/-- In every run of launches that can open the lock file, however their system calls interleave
and wherever they crash: one server at most runs, a browser that still has the lock file open
keeps others out, and every URL that is handed on is that of another launch. -/
theorem launches_consistent {s : System} (hrun : ReflTransGen Step {} s) : Consistent s :=
  (invariant_of_run invariant_start hrun).consistent

/-- A launch that is turned away while the line of the server is in the lock file finds its
address. Of all the URLs that launches were ever given for that port, this one shows the page, and
every other one is refused, whatever the server has done so far. -/
theorem turnedAway_opens {ρ : Type} (env : Env ρ) {s : System} (hrun : ReflTransGen Step {} s)
    {j : ℕ} (hj : s.phase j = .serving true) :
    ∃ address : Address, s.address j = some address ∧ readAddress s.file = some address ∧
      ∀ app : App ρ, app.IsAt address.1 address.2 → ∀ known : Address, known.1 = address.1 →
        (known = address ∨ ∃ i, (i, known) ∈ s.heard) →
        ∀ fields : List (Bytes × Bytes), PageFields fields → ∀ segment : ℕ → ℕ,
          (browserRequest (launchUrl known.1 known.2) fields).length < requestBufCap →
          responseTo env app
            (ending ⟨browserRequest (launchUrl known.1 known.2) fields, segment⟩) =
            some (if known = address then pageResponse env
              else sendText 403 (ascii "Forbidden") 9) := by
  have hinvariant := invariant_of_run invariant_start hrun
  obtain ⟨address, haddress, hfile⟩ := hinvariant.written.announced j hj
  have hvalid := hinvariant.recorded.addresses j address haddress
  refine ⟨address, haddress, ?_, fun app happ known hport hknown fields hfields segment hsize => ?_⟩
  · rw [hfile]
    exact readAddress_line hvalid
  -- the token is that of a launch, or a front of it
  obtain ⟨whole, hwhole, hfront⟩ : ∃ whole, IsAddress whole ∧ known.2 <+: whole.2 := by
    rcases hknown with rfl | ⟨i, hi⟩
    · exact ⟨known, hvalid, List.prefix_rfl⟩
    · obtain ⟨k, whole, _, hk, _, _, hfront⟩ := hinvariant.recorded.heard i known hi
      exact ⟨whole, hinvariant.recorded.addresses k whole hk, hfront⟩
  obtain ⟨hlength, hsafe⟩ := hwhole.token
  have hshort : known.2.length < 128 := by
    have hle := hfront.length_le
    omega
  have hsame : known = address ↔ known.2 = address.2 :=
    ⟨fun h => h ▸ rfl, fun h => Prod.ext hport h⟩
  obtain ⟨_, hrange, raw, hraw, htoken⟩ := hvalid
  rw [htoken] at happ
  rw [if_congr hsame rfl rfl, hport, htoken]
  exact responseTo_launch env hrange (fun c hc => hsafe c (hfront.subset hc)) hshort hraw hfields
    happ segment (hport ▸ hsize)

/-! ### Launches that come and go -/

namespace System

/-- A launch comes through, and so much of its line gets into the file. -/
def served (s : System) (i : ℕ) (address : Address) (taken : ℕ) : System :=
  { s.moved i (.serving (decide ((lockLine address).length ≤ taken))) with
    file := some ((lockLine address).take taken)
    lock := { owner := some i, holders := [.server i] }
    address := Function.update s.address i (some address) }

/-- A launch finds the lock taken. -/
def turnedAway (s : System) (i : ℕ) : System :=
  (s.hears i (readAddress s.file)).moved i (.told (readAddress s.file))

/-- A server starts a browser and ends. -/
def outlived (s : System) (i : ℕ) : System :=
  { s.moved i .ended with lock := (s.lock.fork (.server i) (.browser i)).close (.server i) }

end System

/-- Any launch can come through with any address once the lock is free, and the disk may take any
part of its line. -/
lemma served_run {s : System} (h : Invariant s) {i : ℕ} {address : Address}
    (hi : s.phase i = .starting) (hfree : s.lock.holders = []) (haddress : IsAddress address)
    (taken : ℕ) : ReflTransGen Step s (s.served i address taken) := by
  let opened : System := { s.moved i .opened with file := some (s.file.getD []) }
  let owner : System := { opened.moved i .owner with
    lock := { owner := some i, holders := [.server i] } }
  let listening : System := { owner.moved i .listening with
    address := Function.update s.address i (some address) }
  let emptied : System := { listening.moved i .emptied with file := some [] }
  have h1 : Step s opened := .openFile hi
  have h2 : Step opened owner :=
    .acquire (System.moved_self ..) (Lock.acquire_some.mpr ⟨hfree, rfl⟩)
  have hfresh : owner.Fresh address := by
    refine ⟨haddress, fun j other hruns hother => ?_⟩
    change s.address j = some other at hother
    have hpast := h.recorded.past j (by simp [hother])
    by_cases hj : j = i
    · rw [hj, hi] at hpast
      exact hpast.elim
    · have hphase : owner.phase j = s.phase j :=
        (opened.moved_other hj _).trans (s.moved_other hj _)
      have hheld := h.exclusive.running j (hphase ▸ hruns)
      rw [hfree] at hheld
      cases hheld
  have h3 : Step owner listening := .listen (System.moved_self ..) hfresh
  have h4 : Step listening emptied := .empty (System.moved_self ..)
  have h5 : Step emptied (s.served i address taken) := by
    have hitself : emptied.address i = some address := Function.update_self ..
    have hstep := @Step.write emptied i address taken (System.moved_self ..) hitself
    convert hstep using 1
    simp [System.served, System.moved, emptied, listening, owner, opened, overwrite]
  exact ((((ReflTransGen.single h1).tail h2).tail h3).tail h4).tail h5

/-- Any other launch is then turned away. -/
lemma turnedAway_run {s : System} {i : ℕ} (hi : s.phase i = .starting)
    (hheld : s.lock.holders ≠ []) {text : Bytes} (hfile : s.file = some text) :
    ReflTransGen Step s (s.turnedAway i) := by
  let opened : System := { s.moved i .opened with file := some (s.file.getD []) }
  have h1 : Step s opened := .openFile hi
  have h2 : Step opened (opened.moved i .refused) :=
    .refuse (System.moved_self ..) (if_neg hheld)
  have h3 : Step (opened.moved i .refused) (s.turnedAway i) := by
    have hstep := Step.read (System.moved_self opened i .refused)
    convert hstep using 1
    simp [System.turnedAway, System.hears, System.moved, opened, hfile]
  exact ((ReflTransGen.single h1).tail h2).tail h3

lemma outlived_run {s : System} {i : ℕ} {announced : Bool} (hi : s.phase i = .serving announced) :
    ReflTransGen Step s (s.outlived i) :=
  (ReflTransGen.single (Step.browse hi)).tail Step.ends

def firstAddress : Address := (40123, generateToken (List.replicate 16 0xA7))

def secondAddress : Address := (40123, generateToken (List.replicate 16 0x5C))

lemma firstAddress_valid : IsAddress firstAddress :=
  ⟨by decide, by decide, List.replicate 16 0xA7, rfl, rfl⟩

lemma secondAddress_valid : IsAddress secondAddress :=
  ⟨by decide, by decide, List.replicate 16 0x5C, rfl, rfl⟩

/-- The first server gets half its line written, launch 1 reads it, and the browser outlives the
server and turns launch 2 away. -/
def lingering : System :=
  (((({} : System).served 0 firstAddress 20).turnedAway 1).outlived 0).turnedAway 2

/-- The browser is closed, and launch 3 serves at the same port. -/
def replaced : System :=
  { lingering with lock := lingering.lock.close (.browser 0) }.served 3 secondAddress 64

/-- What launch 1 was told. -/
def halfAddress : Address := (40123, firstAddress.2.take 14)

lemma lingering_run : ReflTransGen Step {} lingering := by
  have h1 := served_run invariant_start (i := 0) rfl rfl firstAddress_valid 20
  have h2 := turnedAway_run (s := ({} : System).served 0 firstAddress 20) (i := 1) rfl nofun rfl
  have h3 := outlived_run (s := (({} : System).served 0 firstAddress 20).turnedAway 1) (i := 0) rfl
  have h4 := turnedAway_run
    (s := ((({} : System).served 0 firstAddress 20).turnedAway 1).outlived 0) (i := 2) rfl nofun rfl
  exact ((h1.trans h2).trans h3).trans h4

lemma replaced_run : ReflTransGen Step {} replaced := by
  have h1 := lingering_run.tail (Step.browserEnds (i := 0))
  exact h1.trans (served_run (invariant_of_run invariant_start h1) rfl rfl secondAddress_valid 64)

theorem lingering_consistent : lingering.phase 0 = .ended ∧
    .browser 0 ∈ lingering.lock.holders ∧ lingering.phase 1 = .told (some halfAddress) ∧
    Consistent lingering :=
  ⟨rfl, by decide, by decide +kernel, launches_consistent lingering_run⟩

def servedEnv : Env ℕ := { partsEnv with indexHtml := ascii "<!doctype html>" }

/-- The frontend of launch 3 starts a scan. -/
def firstScan : Request where
  method := ascii "POST"
  path := ascii "/api/scan"
  query := pickedQuery launchedApp false firstPart
  headers := [{ name := ascii "Host", value := ascii "127.0.0.1:40123" },
    { name := ascii "X-USBSentinel-Token", value := secondAddress.2 }]

/-- The application of launch 3 while it scans. -/
def scanningApp : App ℕ :=
  (handleRequest servedEnv (App.create secondAddress.2 secondAddress.1) firstScan).app

def acceptHtml : List (Bytes × Bytes) := [(ascii "Accept", ascii "text/html")]

lemma acceptHtml_page : PageFields acceptHtml := by
  intro field hfield
  obtain rfl := List.mem_singleton.mp hfield
  exact ⟨⟨by decide, by decide⟩, by decide, by decide⟩

lemma replaced_facts : replaced.phase 3 = .serving true ∧
    replaced.heard = [(2, halfAddress), (1, halfAddress)] ∧ scanningApp.busy = true ∧
    halfAddress ≠ secondAddress ∧
    ∀ address ∈ [secondAddress, halfAddress],
      (browserRequest (launchUrl address.1 address.2) acceptHtml).length < requestBufCap := by
  decide +kernel

/-- The URL of launch 3 shows its page while it scans, and what launch 1 was told does not. -/
theorem replaced_opens : scanningApp.busy = true ∧ (1, halfAddress) ∈ replaced.heard ∧
    readAddress replaced.file = some secondAddress ∧
    responseTo servedEnv scanningApp
      (ending ⟨browserRequest (launchUrl 40123 secondAddress.2) acceptHtml, fun _ => 9⟩) =
      some (pageResponse servedEnv) ∧
    responseTo servedEnv scanningApp
      (ending ⟨browserRequest (launchUrl 40123 halfAddress.2) acceptHtml, fun _ => 9⟩) =
      some (sendText 403 (ascii "Forbidden") 9) := by
  obtain ⟨hserving, hheard, hbusy, hhalf, hsizes⟩ := replaced_facts
  have htold : (1, halfAddress) ∈ replaced.heard := by
    rw [hheard]
    exact List.mem_cons_of_mem _ (List.mem_singleton_self _)
  obtain ⟨address, haddress, hread, hopens⟩ := turnedAway_opens servedEnv replaced_run hserving
  obtain rfl : secondAddress = address := Option.some.inj haddress
  have happ : scanningApp.IsAt secondAddress.1 secondAddress.2 :=
    (App.create_isAt _ _).handled servedEnv firstScan
  refine ⟨hbusy, htold, hread, ?_, ?_⟩
  · have hpage := hopens scanningApp happ secondAddress rfl (.inl rfl) acceptHtml acceptHtml_page
      (fun _ => 9) (hsizes _ (List.mem_cons_self ..))
    rwa [if_pos rfl] at hpage
  · have hrefused := hopens scanningApp happ halfAddress rfl (.inr ⟨1, htold⟩) acceptHtml
      acceptHtml_page (fun _ => 9) (hsizes _ (List.mem_cons_of_mem _ (List.mem_singleton_self _)))
    rwa [if_neg hhalf] at hrefused

/-- Without the lock file there is nothing to keep a second server out. -/
theorem unopened_twice : ∃ s, ReflTransGen AnyStep {} s ∧ (s.phase 0).Runs ∧ (s.phase 1).Runs := by
  let first : System := ({} : System).moved 0 .owner
  have h1 : AnyStep {} first := .openFails rfl
  have h2 : AnyStep first (first.moved 1 .owner) := .openFails rfl
  exact ⟨_, (ReflTransGen.single h1).tail h2, trivial, trivial⟩

end UsbSentinel.Launch
