import HdyUtils.Lib.Lists
import HdyUtils.Mercury.Driver

/-! What the Mercury driver writes to the control socket for a connection, and what it reads of one
that is made.  The check of a callsign trims it, the set-up of the modem trims it and makes it upper
case, and the command and the reader of `CONNECTED` lines do not trim. -/

namespace HdyUtils.Mercury

variable {N : Type}

/-- The characters of a callsign. -/
def isCallChar (c : Char) : Bool := c.isAlphanum || c = '-'

/-- What is used of the upper-case mapping of Unicode: what it does to the characters of callsigns and
white space, and that it makes no white space. -/
structure LawfulUppercase (platform : Platform N) : Prop where
  plain : ∀ s : String, (∀ c ∈ s.toList, isCallChar c = true ∨ isWhitespace c = true) →
    platform.toUppercase s = s.map Char.toUpper
  no_whitespace : ∀ s : String, (∀ c ∈ s.toList, isWhitespace c = false) →
    ∀ c ∈ (platform.toUppercase s).toList, isWhitespace c = false

variable (platform : Platform N) (config : Config)

/-- The callsign that the modem is given for the station. -/
def stationCall : String := platform.toUppercase (trim config.myCallsign)

/-- The set-up of the modem. -/
def initMercuryTnc (bandwidth : UInt32) : Except Error String :=
  let mycall := stationCall platform config
  if !isValidCallsign mycall then
    .error (.control ("Invalid configured my_callsign: " ++ mycall))
  else .ok ("MYCALL " ++ mycall ++ "\rBW" ++ bandwidth.toNat.repr ++ "\rLISTEN ON\r")

/-- The command that the modem should be given to connect to a station. -/
def connectLine (callsign : String) : String :=
  "CONNECT " ++ stationCall platform config ++ " " ++ platform.toUppercase (trim callsign) ++ "\r"

/-- The text is one line that is not empty, with the carriage return that ends it. -/
def OneLine (text : String) : Prop :=
  ∃ line, text.toList = line ++ ['\r'] ∧ line ≠ [] ∧ '\r' ∉ line ∧ '\n' ∉ line

/-- The line tells of a connection between the station and another one. -/
def NamesStations (line other : String) : Prop :=
  "CONNECTED".toList.isPrefixOf line.toList = true ∧
    ∃ head src dst rest, splitWhitespace line = head :: src :: dst :: rest ∧
      other ≠ stationCall platform config ∧
      (platform.toUppercase src = stationCall platform config ∧ platform.toUppercase dst = other ∨
        platform.toUppercase dst = stationCall platform config ∧ platform.toUppercase src = other)

/-- The line names the station first. -/
def OwnFirst (line : String) : Prop :=
  ∃ head src rest, splitWhitespace line = head :: src :: rest ∧
    platform.toUppercase src = stationCall platform config

/-- After the line the driver is connected to the station `other`, whose address is registered. -/
def Registers (d : Driver N) (link : Link N) (line : String) (now : Nat) (other : String) : Prop :=
  ∃ link' node, (d.handleCtlLine platform config link line now).phase = .online link' ∧
    link'.session = .connected other node now now ∧
    callsignToClaAddress platform other ∈
      (d.handleCtlLine platform config link line now).registered

/-- The control line is used as it should: a callsign is dialled by one command with the trimmed
callsigns in upper case, and the other station of a `CONNECTED` line is registered. -/
structure ControlIntact (callsign : String) (nodeId : N) (reply : ReplyId) (d : Driver N)
    (link : Link N) (line : String) (now : Nat) : Prop where
  dialled : isValidCallsign callsign = true →
    ∀ (d : Driver N) (link : Link N), link.session = .disconnected →
      ∃ link' text, (d.handleConnect platform config link callsign nodeId reply true).phase =
          .online link' ∧ link'.control = link.control ++ [text] ∧
        text = connectLine platform config callsign ∧ OneLine text
  registered : ∀ other, NamesStations platform config line other →
    Registers platform config d link line now other

/-- The callsigns are as they are dialled, and the modem does not name the station first unless its
callsign is trimmed; the other station has a node. -/
structure CallsTrimmed (callsign : String) (d : Driver N) (line : String) : Prop where
  dialled : isValidCallsign callsign = true →
    config.myCallsign = stationCall platform config ∧ trim callsign = callsign
  registered : ∀ other, NamesStations platform config line other →
    (OwnFirst platform config line → trim config.myCallsign = config.myCallsign) ∧
      (d.peers[other]?.isSome = true ∨
        (platform.parseNodeId ("dtn://" ++ platform.toLowercase other ++ "/")).isSome = true)

/-! ### Trimming and upper case -/

variable {platform} {config} {s : String} {c : Char}

theorem trim_sublist (s : String) : (trim s).toList.Sublist s.toList := by
  unfold trim
  rw [String.toList_ofList]
  have hback : ((s.toList.dropWhile isWhitespace).reverse.dropWhile isWhitespace).reverse <+:
      s.toList.dropWhile isWhitespace := List.rdropWhile_prefix isWhitespace _
  exact hback.sublist.trans (List.dropWhile_sublist _)

theorem trim_eq_of_length (h : s.toList.length ≤ (trim s).toList.length) : trim s = s :=
  String.toList_inj.mp ((trim_sublist s).eq_of_length_le h)

theorem mem_dropWhile_or {l : List Char} {p : Char → Bool} (hc : c ∈ l) :
    c ∈ l.dropWhile p ∨ p c = true := by
  rw [← l.takeWhile_append_dropWhile (p := p), List.mem_append] at hc
  rcases hc with hc | hc
  · exact .inr (List.mem_takeWhile_imp hc)
  · exact .inl hc

/-- Only white space is trimmed. -/
theorem mem_trim_or (hc : c ∈ s.toList) : c ∈ (trim s).toList ∨ isWhitespace c = true := by
  unfold trim
  rw [String.toList_ofList, List.mem_reverse]
  rcases mem_dropWhile_or (p := isWhitespace) hc with hc | hc
  · exact mem_dropWhile_or (List.mem_reverse.mpr hc)
  · exact .inr hc

theorem callChars_trim (h : isValidCallsign s = true) :
    ∀ c ∈ (trim s).toList, isCallChar c = true := by
  unfold isValidCallsign at h
  simp only [Bool.and_eq_true] at h
  exact List.all_eq_true.mp h.2

theorem chars_of_valid (h : isValidCallsign s = true) :
    ∀ c ∈ s.toList, isCallChar c = true ∨ isWhitespace c = true := by
  intro c hc
  rcases mem_trim_or hc with hc | hc
  · exact .inl (callChars_trim h c hc)
  · exact .inr hc

theorem toUpper_cases (c : Char) :
    c.toUpper = c ∨ (65 ≤ c.toUpper.toNat ∧ c.toUpper.toNat ≤ 90) := by
  unfold Char.toUpper
  split
  · next h =>
    right
    obtain ⟨hlow, hhigh⟩ := h
    rw [UInt32.le_iff_toNat_le] at hlow hhigh
    have ha : ('a'.val).toNat = 97 := by decide
    have hz : ('z'.val).toNat = 122 := by decide
    have hd : ('A'.val - 'a'.val).toNat = 4294967264 := by decide
    rw [ha] at hlow
    rw [hz] at hhigh
    show 65 ≤ (c.val + ('A'.val - 'a'.val)).toNat ∧ (c.val + ('A'.val - 'a'.val)).toNat ≤ 90
    rw [UInt32.toNat_add, hd]
    omega
  · exact .inl rfl

theorem toUpper_of_whitespace (h : isWhitespace c = true) : c.toUpper = c := by
  unfold Char.toUpper
  split
  · next hlower =>
    obtain ⟨hlow, hhigh⟩ := hlower
    rw [UInt32.le_iff_toNat_le] at hlow hhigh
    have hbounds : 97 ≤ c.toNat ∧ c.toNat ≤ 122 := ⟨hlow, hhigh⟩
    unfold isWhitespace at h
    simp only [List.mem_cons, List.not_mem_nil, or_false, decide_eq_true_iff] at h
    omega
  · rfl

theorem isWhitespace_toUpper (h : isWhitespace c = false) : isWhitespace c.toUpper = false := by
  rcases toUpper_cases c with heq | ⟨hlow, hhigh⟩
  · rw [heq, h]
  · unfold isWhitespace
    simp only [List.mem_cons, List.not_mem_nil, or_false, decide_eq_false_iff_not]
    omega

theorem call_cases (h : isCallChar c = true) :
    65 ≤ c.toNat ∧ c.toNat ≤ 90 ∨ 97 ≤ c.toNat ∧ c.toNat ≤ 122 ∨ 48 ≤ c.toNat ∧ c.toNat ≤ 57 ∨
      c.toNat = 45 := by
  simp only [isCallChar, Char.isAlphanum, Char.isAlpha, Char.isUpper, Char.isLower, Char.isDigit,
    Bool.or_eq_true, Bool.and_eq_true, decide_eq_true_iff, UInt32.le_iff_toNat_le, ge_iff_le] at h
  have hrange : (((65 ≤ c.toNat ∧ c.toNat ≤ 90) ∨ (97 ≤ c.toNat ∧ c.toNat ≤ 122)) ∨
      (48 ≤ c.toNat ∧ c.toNat ≤ 57)) ∨ c = '-' := h
  rcases hrange with ((hrange | hrange) | hrange) | rfl
  · exact .inl hrange
  · exact .inr (.inl hrange)
  · exact .inr (.inr (.inl hrange))
  · exact .inr (.inr (.inr rfl))

theorem isWhitespace_of_call (h : isCallChar c = true) : isWhitespace c = false := by
  have hrange := call_cases h
  clear h
  unfold isWhitespace
  simp only [List.mem_cons, List.not_mem_nil, or_false, decide_eq_false_iff_not]
  omega

theorem utf8Size_of_call (h : isCallChar c = true) : c.utf8Size = 1 := by
  have hrange := call_cases h
  have hval : c.val.toNat = c.toNat := rfl
  have hbound : (127 : UInt32).toNat = 127 := rfl
  rw [Char.utf8Size_eq_one_iff, UInt32.le_iff_toNat_le, hval, hbound]
  omega

theorem isCallChar_toUpper (h : isCallChar c = true) : isCallChar c.toUpper = true := by
  rcases toUpper_cases c with heq | ⟨hlow, hhigh⟩
  · rw [heq, h]
  · have hupper : c.toUpper.isUpper = true := by
      simp only [Char.isUpper, decide_eq_true_iff, UInt32.le_iff_toNat_le, ge_iff_le]
      exact ⟨hlow, hhigh⟩
    simp only [isCallChar, Char.isAlphanum, Char.isAlpha, hupper, Bool.true_or]

theorem trim_eq_self (h : ∀ c ∈ s.toList, isWhitespace c = false) : trim s = s := by
  have hsame : ∀ l : List Char, (∀ c ∈ l, isWhitespace c = false) → l.dropWhile isWhitespace = l := by
    intro l hl
    cases l with
    | nil => rfl
    | cons c l => rw [List.dropWhile_cons, hl c List.mem_cons_self, if_neg Bool.false_ne_true]
  unfold trim
  rw [hsame _ h, hsame s.toList.reverse fun c hc => h c (List.mem_reverse.mp hc), List.reverse_reverse,
    String.ofList_toList]

/-- The characters of a callsign take an octet each. -/
theorem utf8ByteSize_of_call (h : ∀ c ∈ s.toList, isCallChar c = true) :
    s.utf8ByteSize = s.toList.length := by
  have hlist : ∀ l : List Char, (∀ c ∈ l, isCallChar c = true) →
      (String.ofList l).utf8ByteSize = l.length := by
    intro l hl
    induction l with
    | nil => rfl
    | cons c l ih =>
      rw [String.ofList_cons, String.utf8ByteSize_append, String.utf8ByteSize_singleton,
        utf8Size_of_call (hl c List.mem_cons_self), ih fun c' hc' => hl c' (List.mem_cons_of_mem c hc'), List.length_cons, Nat.add_comm]
  have hsize := hlist s.toList h
  rwa [String.ofList_toList] at hsize

theorem handleConnect_disconnected (hmy : isValidCallsign config.myCallsign = true)
    (hvalid : isValidCallsign s = true) (d : Driver N) {link : Link N} (nodeId : N)
    (reply : ReplyId) (hsession : link.session = .disconnected) :
    d.handleConnect platform config link s nodeId reply true =
      d.online { link with
        session := .connecting (platform.toUppercase s) nodeId
        pendingConnectReply := some reply
        control := link.control ++
          ["CONNECT " ++ config.myCallsign ++ " " ++ platform.toUppercase s ++ "\r"] } := by
  unfold Driver.handleConnect
  simp only [hmy, hvalid, Bool.not_true, Bool.or_self, Bool.false_eq_true, if_false, hsession,
    if_true]

section Lawful

variable (h : LawfulUppercase platform)

include h

theorem toUppercase_trim (hvalid : isValidCallsign s = true) :
    platform.toUppercase (trim s) = (trim s).map Char.toUpper :=
  h.plain _ fun c hc => .inl (callChars_trim hvalid c hc)

theorem toUppercase_valid (hvalid : isValidCallsign s = true) :
    platform.toUppercase s = s.map Char.toUpper :=
  h.plain s (chars_of_valid hvalid)

theorem not_whitespace_of_dialled (hvalid : isValidCallsign s = true) :
    ∀ c ∈ (platform.toUppercase (trim s)).toList, isWhitespace c = false :=
  h.no_whitespace _ fun c hc => isWhitespace_of_call (callChars_trim hvalid c hc)

theorem isValidCallsign_stationCall (hmy : isValidCallsign config.myCallsign = true) :
    isValidCallsign (stationCall platform config) = true := by
  have hchars := callChars_trim hmy
  have hupper : (stationCall platform config).toList =
      (trim config.myCallsign).toList.map Char.toUpper := by
    rw [stationCall, toUppercase_trim h hmy, String.toList_map]
  have hcalls : ∀ c ∈ (stationCall platform config).toList, isCallChar c = true := by
    rw [hupper]
    intro c hc
    obtain ⟨c', hc', rfl⟩ := List.mem_map.mp hc
    exact isCallChar_toUpper (hchars c' hc')
  have htrim : trim (stationCall platform config) = stationCall platform config :=
    trim_eq_self fun c hc => isWhitespace_of_call (hcalls c hc)
  have hsize : (stationCall platform config).utf8ByteSize =
      (trim config.myCallsign).utf8ByteSize := by
    rw [utf8ByteSize_of_call hcalls, utf8ByteSize_of_call hchars, hupper, List.length_map]
  unfold isValidCallsign at hmy ⊢
  simp only [Bool.and_eq_true, Bool.not_eq_true', decide_eq_true_iff, String.isEmpty_eq_false_iff]
    at hmy ⊢
  rw [htrim, hsize]
  refine ⟨⟨fun hempty => ?_, hmy.1.2⟩, List.all_eq_true.mpr hcalls⟩
  rw [hempty] at hsize
  exact hmy.1.1 (String.utf8ByteSize_eq_zero_iff.mp hsize.symm)

/-- The set-up of the modem accepts what the check of callsigns does. -/
theorem initMercuryTnc_ok (hmy : isValidCallsign config.myCallsign = true) (bandwidth : UInt32) :
    initMercuryTnc platform config bandwidth =
      .ok ("MYCALL " ++ stationCall platform config ++ "\rBW" ++ bandwidth.toNat.repr ++
        "\rLISTEN ON\r") := by
  unfold initMercuryTnc
  simp only [isValidCallsign_stationCall h hmy, Bool.not_true, Bool.false_eq_true, if_false]

theorem oneLine_connectLine (hmy : isValidCallsign config.myCallsign = true)
    (hvalid : isValidCallsign s = true) : OneLine (connectLine platform config s) := by
  have hno : ∀ (c : Char), isWhitespace c = true → c ≠ ' ' →
      c ∉ ("CONNECT " ++ stationCall platform config ++ " " ++
        platform.toUppercase (trim s)).toList := by
    intro c hwhite hspace hmem
    simp only [String.toList_append, List.mem_append] at hmem
    rcases hmem with ((hmem | hmem) | hmem) | hmem
    · have hword : c ∈ ['C', 'O', 'N', 'N', 'E', 'C', 'T'] ++ [' '] := by simpa using hmem
      have hcall : ['C', 'O', 'N', 'N', 'E', 'C', 'T'].all isCallChar = true := rfl
      rcases List.mem_append.mp hword with hletter | hletter
      · rw [isWhitespace_of_call (List.all_eq_true.mp hcall c hletter)] at hwhite
        cases hwhite
      · exact hspace (List.mem_singleton.mp hletter)
    · rw [not_whitespace_of_dialled h hmy c hmem] at hwhite
      cases hwhite
    · exact hspace (List.mem_singleton.mp hmem)
    · rw [not_whitespace_of_dialled h hvalid c hmem] at hwhite
      cases hwhite
  refine ⟨_, String.toList_append, ?_, hno '\r' (by decide) (by decide),
    hno '\n' (by decide) (by decide)⟩
  simp only [String.toList_append]
  exact nofun

/-! ### Dialling -/

/-- The command that is written for a connection is the right one exactly if the station's callsign is
trimmed and in upper case and the other one is trimmed. -/
theorem written_eq_connectLine_iff (hmy : isValidCallsign config.myCallsign = true)
    (hvalid : isValidCallsign s = true) :
    "CONNECT " ++ config.myCallsign ++ " " ++ platform.toUppercase s ++ "\r" =
        connectLine platform config s ↔
      config.myCallsign = stationCall platform config ∧ trim s = s := by
  unfold connectLine
  constructor
  · intro heq
    have htrim : trim s = s := by
      -- trimming shortens nothing here, since upper case keeps the lengths
      have hlength := congrArg (fun t => t.toList.length) heq
      simp only [stationCall, toUppercase_valid h hvalid, toUppercase_trim h hvalid,
        toUppercase_trim h hmy, String.toList_append, String.toList_map, List.length_append,
        List.length_map] at hlength
      have hshort := (trim_sublist s).length_le
      have hshortMy := (trim_sublist config.myCallsign).length_le
      apply trim_eq_of_length
      omega
    rw [htrim] at heq
    have hlist := congrArg String.toList heq
    simp only [String.toList_append, List.append_assoc] at hlist
    have hmyList := List.append_cancel_right (List.append_cancel_left hlist)
    exact ⟨String.toList_inj.mp hmyList, htrim⟩
  · rintro ⟨hown, htrim⟩
    rw [htrim, ← hown]

theorem dialled_iff (hmy : isValidCallsign config.myCallsign = true)
    (hvalid : isValidCallsign s = true) (nodeId : N) (reply : ReplyId) :
    (∀ (d : Driver N) (link : Link N), link.session = .disconnected →
      ∃ link' text, (d.handleConnect platform config link s nodeId reply true).phase =
          .online link' ∧ link'.control = link.control ++ [text] ∧
        text = connectLine platform config s ∧ OneLine text) ↔
      config.myCallsign = stationCall platform config ∧ trim s = s := by
  rw [← written_eq_connectLine_iff h hmy hvalid]
  constructor
  · intro hall
    obtain ⟨link', text, hphase, hcontrol, htext, -⟩ := hall (.new ∅) .new rfl
    have hsession : (Link.new : Link N).session = .disconnected := rfl
    rw [handleConnect_disconnected hmy hvalid _ nodeId reply hsession, Driver.online_phase,
      Phase.online.injEq] at hphase
    rw [← hphase] at hcontrol
    rw [← htext]
    exact (List.cons.inj (List.append_cancel_left hcontrol)).1
  · intro heq d link hsession
    rw [handleConnect_disconnected hmy hvalid d nodeId reply hsession]
    exact ⟨_, _, rfl, rfl, heq, heq ▸ oneLine_connectLine h hmy hvalid⟩

/-! ### Connections -/

omit h in
theorem not_whitespace_of_part {line part : String} (hpart : part ∈ splitWhitespace line) :
    ∀ c ∈ part.toList, isWhitespace c = false := by
  unfold splitWhitespace at hpart
  obtain ⟨piece, hpiece, rfl⟩ := List.mem_map.mp hpart
  rw [String.toList_ofList]
  exact Lists.of_mem_splitOnP (List.mem_of_mem_filter hpiece)

/-- A part of a line is not the station's callsign with white space around it. -/
theorem part_ne_of_untrimmed (hmy : isValidCallsign config.myCallsign = true)
    (huntrimmed : trim config.myCallsign ≠ config.myCallsign) {line part : String}
    (hpart : part ∈ splitWhitespace line) :
    platform.toUppercase part ≠ platform.toUppercase config.myCallsign := by
  intro heq
  have hpure := h.no_whitespace part (not_whitespace_of_part hpart)
  rw [heq, toUppercase_valid h hmy, String.toList_map] at hpure
  apply huntrimmed
  apply trim_eq_self
  intro c hc
  rcases chars_of_valid hmy c hc with hcall | hwhite
  · exact isWhitespace_of_call hcall
  · have hupper := hpure c.toUpper (List.mem_map_of_mem hc)
    rw [toUpper_of_whitespace hwhite, hwhite] at hupper
    cases hupper

/-- The driver takes the other station for its peer exactly if its own callsign is trimmed where the
line names it first. -/
theorem connectedPeer_eq_iff (hmy : isValidCallsign config.myCallsign = true) {line other : String}
    (hnames : NamesStations platform config line other) :
    connectedPeer platform config line = other ↔
      (OwnFirst platform config line → trim config.myCallsign = config.myCallsign) := by
  obtain ⟨-, head, src, dst, rest, hparts, hother, hstations⟩ := hnames
  have hsrc : src ∈ splitWhitespace line := by
    rw [hparts]
    exact List.mem_cons_of_mem head List.mem_cons_self
  have hfirst : OwnFirst platform config line ↔
      platform.toUppercase src = stationCall platform config := by
    constructor
    · rintro ⟨head', src', rest', hparts', hown⟩
      rw [hparts] at hparts'
      cases hparts'
      exact hown
    · intro hown
      exact ⟨head, src, dst :: rest, hparts, hown⟩
  have hpeer : connectedPeer platform config line =
      if platform.toUppercase src = platform.toUppercase config.myCallsign then
        platform.toUppercase dst
      else platform.toUppercase src := by
    unfold connectedPeer
    rw [hparts]
  rw [hpeer, hfirst]
  by_cases htrimmed : trim config.myCallsign = config.myCallsign
  · refine iff_of_true ?_ fun _ => htrimmed
    have hstation : platform.toUppercase config.myCallsign = stationCall platform config := by
      rw [stationCall, htrimmed]
    rw [hstation]
    rcases hstations with ⟨hown, hdst⟩ | ⟨-, hsrcOther⟩
    · rw [if_pos hown, hdst]
    · rw [hsrcOther, if_neg hother]
  · rw [if_neg (part_ne_of_untrimmed h hmy htrimmed hsrc)]
    rcases hstations with ⟨hown, -⟩ | ⟨-, hsrcOther⟩
    · rw [hown]
      exact iff_of_false hother.symm fun himp => htrimmed (himp rfl)
    · rw [hsrcOther]
      exact iff_of_true rfl fun hown => absurd hown hother

omit h in
theorem registers_iff {d : Driver N} {link : Link N} {line : String} {now : Nat} {other : String}
    (hconnected : "CONNECTED".toList.isPrefixOf line.toList = true) :
    Registers platform config d link line now other ↔
      connectedPeer platform config line = other ∧ (d.peers[other]?.isSome = true ∨
        (platform.parseNodeId ("dtn://" ++ platform.toLowercase other ++ "/")).isSome = true) := by
  have hnode : ∀ peer, (d.peerNode platform peer).isSome = true ↔ (d.peers[peer]?.isSome = true ∨
      (platform.parseNodeId ("dtn://" ++ platform.toLowercase peer ++ "/")).isSome = true) := by
    intro peer
    unfold Driver.peerNode
    cases d.peers[peer]? with
    | none => simp
    | some node => simp
  unfold Registers Driver.handleCtlLine
  rw [if_pos hconnected]
  simp only
  cases hpeer : d.peerNode platform (connectedPeer platform config line) with
  | none =>
    refine iff_of_false (fun ⟨_, _, hphase, _⟩ => (nomatch hphase)) ?_
    rintro ⟨rfl, hsome⟩
    rw [← hnode, hpeer] at hsome
    cases hsome
  | some found =>
    obtain ⟨node, d'⟩ := found
    constructor
    · rintro ⟨link', node', hphase, hsession, -⟩
      rw [Driver.online_phase, Phase.online.injEq] at hphase
      rw [← hphase] at hsession
      cases hsession
      refine ⟨rfl, (hnode _).mp ?_⟩
      rw [hpeer]
      rfl
    · rintro ⟨rfl, -⟩
      refine ⟨_, node, rfl, rfl, ?_⟩
      rw [Driver.online_registered, Driver.answerPending_registered, Driver.addPeer_registered]
      exact Finset.mem_insert_self _ _

/-- The control line is used as it should exactly if the callsigns that are dialled are as they are
sent, the station's own callsign is trimmed where the modem names it first, and the other station has
a node. -/
theorem control_intact_iff (hmy : isValidCallsign config.myCallsign = true) (callsign : String)
    (nodeId : N) (reply : ReplyId) (d : Driver N) (link : Link N) (line : String) (now : Nat) :
    ControlIntact platform config callsign nodeId reply d link line now ↔
      CallsTrimmed platform config callsign d line := by
  have hregistered : ∀ other, NamesStations platform config line other →
      (Registers platform config d link line now other ↔
        (OwnFirst platform config line → trim config.myCallsign = config.myCallsign) ∧
          (d.peers[other]?.isSome = true ∨
            (platform.parseNodeId ("dtn://" ++ platform.toLowercase other ++ "/")).isSome = true)) := by
    intro other hnames
    rw [registers_iff hnames.1, connectedPeer_eq_iff h hmy hnames]
  constructor
  · intro hintact
    constructor
    · intro hvalid
      exact (dialled_iff h hmy hvalid nodeId reply).mp (hintact.dialled hvalid)
    · intro other hnames
      exact (hregistered other hnames).mp (hintact.registered other hnames)
  · intro htrimmed
    constructor
    · intro hvalid
      exact (dialled_iff h hmy hvalid nodeId reply).mpr (htrimmed.dialled hvalid)
    · intro other hnames
      exact (hregistered other hnames).mpr (htrimmed.registered other hnames)

end Lawful

theorem ascii_lawful : LawfulUppercase ascii where
  plain _ _ := rfl
  no_whitespace s hs c hc := by
    have hmap : (ascii.toUppercase s).toList = s.toList.map Char.toUpper := String.toList_map
    rw [hmap] at hc
    obtain ⟨c', hc', rfl⟩ := List.mem_map.mp hc
    exact isWhitespace_toUpper (hs c' hc')

/-- The station `F4JXQ` dials `F5ABC`, and is connected. -/
theorem control_intact_iff_plain :
    ControlIntact ascii ⟨"F4JXQ", none⟩ "F5ABC" "dtn://f5abc/" 0 (.new ∅) .new
        "CONNECTED F4JXQ F5ABC 2300" 0 ↔
      CallsTrimmed ascii ⟨"F4JXQ", none⟩ "F5ABC" (.new ∅) "CONNECTED F4JXQ F5ABC 2300" :=
  control_intact_iff ascii_lawful (by decide +kernel) "F5ABC" "dtn://f5abc/" 0 (.new ∅) .new
    "CONNECTED F4JXQ F5ABC 2300" 0

/-- A callsign that ends in a carriage return makes a command that ends in two, and a station whose
callsign ends in a blank takes itself for its peer. -/
theorem untrimmed_callsigns_break :
    (¬∀ (d : Driver String) (link : Link String), link.session = .disconnected →
      ∃ link' text, (d.handleConnect ascii ⟨"F4JXQ", none⟩ link "F5ABC\r" "dtn://f5abc/" 0
          true).phase = .online link' ∧ link'.control = link.control ++ [text] ∧
        text = connectLine ascii ⟨"F4JXQ", none⟩ "F5ABC\r" ∧ OneLine text) ∧
      NamesStations ascii ⟨"F4JXQ ", none⟩ "CONNECTED F4JXQ F5ABC 2300" "F5ABC" ∧
      ¬Registers ascii ⟨"F4JXQ ", none⟩ (.new ∅) .new "CONNECTED F4JXQ F5ABC 2300" 0 "F5ABC" := by
  refine ⟨?_, ⟨by decide +kernel, "CONNECTED", "F4JXQ", "F5ABC", ["2300"], by decide +kernel,
    by decide +kernel, .inl ⟨by decide +kernel, by decide +kernel⟩⟩, ?_⟩
  · intro hall
    obtain ⟨-, htrim⟩ :=
      (dialled_iff ascii_lawful (by decide +kernel) (by decide +kernel) _ 0).mp hall
    exact absurd htrim (by decide +kernel)
  · intro hregisters
    obtain ⟨hpeer, -⟩ := (registers_iff (by decide +kernel)).mp hregisters
    exact absurd hpeer (by decide +kernel)

end HdyUtils.Mercury
