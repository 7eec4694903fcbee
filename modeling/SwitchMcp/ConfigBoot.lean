import SwitchMcp.Config
/-!
# ConfigBoot — the configuration of the next boot

A generated config.ini is read back as the initial configuration with the written port and token (`fileSettings_generated`),
whatever else the running configuration holds.  So the next boot agrees with this one exactly when nothing had to be
generated, or every other setting had the generated value (`next_boot_iff`).
-/
namespace SwitchMcp
namespace Agent

open JsonText (digitsVal decimal digitByte)

/-! ## Lines of a generated file -/

theorem fgetsLoop_line (max : Nat) : ∀ (l : Bytes) (k : Nat) (s line : Bytes), newline ∉ l → l.length < k →
    fgetsLoop max k (l ++ newline :: s) line = (line ++ l ++ [newline]) :: fgetsLoop max max s []
  | [], k, s, line, _, _ => by
    rw [List.nil_append, fgetsLoop, if_pos (Or.inl rfl), List.append_nil]
  | b :: l, k, s, line, hn, hk => by
    rw [List.mem_cons, not_or] at hn
    rw [List.length_cons] at hk
    have hb : ¬(b = newline ∨ k ≤ 1) := by
      rintro (h | h)
      · exact hn.1 h.symm
      · omega
    rw [List.cons_append, fgetsLoop, if_neg hb, fgetsLoop_line max l (k - 1) s _ hn.2 (by omega)]
    simp

theorem fgetsLines_text (size : Nat) (lines : List Bytes) (h : ∀ l ∈ lines, newline ∉ l ∧ l.length + 1 < size) :
    fgetsLines size (linesText lines) = lines.map (fun l => l ++ [newline]) := by
  unfold fgetsLines linesText
  induction lines with
  | nil => rfl
  | cons l lines ih =>
    have hl := h l (by simp)
    have hih := ih fun l' h' => h l' (List.mem_cons_of_mem _ h')
    rw [List.flatMap_cons, List.append_assoc, List.singleton_append, fgetsLoop_line _ l _ _ _ hl.1 (by omega), hih,
      List.nil_append, List.map_cons]

/-- A key or a value that `Trim` leaves alone, and that is neither a comment nor holds the separator. -/
structure Word (w : Bytes) : Prop where
  ne_nil : w ≠ []
  plain : ∀ b ∈ w, isBlank b = false ∧ b ≠ 0 ∧ b ≠ ch '=' ∧ b ≠ ch '#' ∧ b ≠ ch ';' ∧ b ≠ newline

theorem dropWhile_blank {w : Bytes} (hw : ∀ b ∈ w.head?, isBlank b = false) : w.dropWhile isBlank = w := by
  cases w with
  | nil => rfl
  | cons b w => rw [List.dropWhile_cons, if_neg (by simp [hw b rfl])]

theorem head_word {w : Bytes} (h : Word w) (s : Bytes) : ∃ b ∈ w, (w ++ s).head? = some b := by
  obtain ⟨b, l, rfl⟩ := List.exists_cons_of_ne_nil h.ne_nil
  exact ⟨b, by simp, rfl⟩

theorem last_word {w : Bytes} (h : Word w) (s : Bytes) : ∃ b ∈ w, (s ++ w).reverse.head? = some b := by
  obtain ⟨l, b, rfl⟩ := List.eq_nil_or_concat w |>.resolve_left h.ne_nil
  exact ⟨b, by simp, by simp⟩

/-- **`Trim` leaves a text that starts and ends with words, and takes the blanks around it.** -/
theorem trim_blanks {pre suf w : Bytes} (hp : ∀ b ∈ pre, isBlank b = true) (hs : ∀ b ∈ suf, isBlank b = true)
    (hfirst : ∃ b, w.head? = some b ∧ isBlank b = false) (hlast : ∃ b, w.reverse.head? = some b ∧ isBlank b = false) :
    trim (pre ++ w ++ suf) = w := by
  obtain ⟨b, hb, hbb⟩ := hfirst
  obtain ⟨c, hc, hcb⟩ := hlast
  have hhead : (w ++ suf).head? = some b := by
    rw [List.head?_append, hb]
    rfl
  have hfront : (pre ++ w ++ suf).dropWhile isBlank = w ++ suf := by
    rw [List.append_assoc, List.dropWhile_append_of_pos hp, dropWhile_blank]
    intro x hx
    rw [hhead] at hx
    cases hx
    exact hbb
  have hback : (w ++ suf).reverse.dropWhile isBlank = w.reverse := by
    rw [List.reverse_append, List.dropWhile_append_of_pos (fun x hx => hs x (List.mem_reverse.1 hx)), dropWhile_blank]
    intro x hx
    rw [hc] at hx
    cases hx
    exact hcb
  rw [trim, hfront, hback, List.reverse_reverse]

theorem trim_word {w pre suf : Bytes} (h : Word w) (hp : ∀ b ∈ pre, isBlank b = true) (hs : ∀ b ∈ suf, isBlank b = true) :
    trim (pre ++ w ++ suf) = w := by
  obtain ⟨b, hb, hfirst⟩ := head_word h []
  obtain ⟨c, hc, hlast⟩ := last_word h []
  rw [List.append_nil] at hfirst
  rw [List.nil_append] at hlast
  exact trim_blanks hp hs ⟨b, hfirst, (h.plain b hb).1⟩ ⟨c, hlast, (h.plain c hc).1⟩

/-- **A line `key = value` is that setting.** -/
theorem configLine_word {key val : Bytes} (hk : Word key) (hv : Word val) :
    configLine (key ++ str " = " ++ val ++ [newline]) = some (key, val) := by
  have hsep : str " = " = [ch ' ', ch '=', ch ' '] := by decide
  have hspace : ∀ b ∈ [ch ' '], isBlank b = true := fun b hb => by rw [List.mem_singleton.1 hb]; decide
  have hnl : ∀ b ∈ [newline], isBlank b = true := fun b hb => by rw [List.mem_singleton.1 hb]; decide
  have hnil : ∀ b ∈ ([] : Bytes), isBlank b = true := by simp
  have hnul : (0 : UInt8) ∉ key ++ str " = " ++ val ++ [newline] := by
    intro h
    simp only [List.mem_append] at h
    rcases h with ((h | h) | h) | h
    · exact (hk.plain 0 h).2.1 rfl
    · exact absurd h (by decide)
    · exact (hv.plain 0 h).2.1 rfl
    · exact absurd h (by decide)
  obtain ⟨b, hb, hfirst⟩ := head_word hk (str " = " ++ val)
  obtain ⟨c, hc, hlast⟩ := last_word hv (key ++ str " = ")
  rw [← List.append_assoc] at hfirst
  have hline : trim (cStr (key ++ str " = " ++ val ++ [newline])) = key ++ str " = " ++ val := by
    rw [cStr_of_no_nul _ hnul]
    exact trim_blanks hnil hnl ⟨b, hfirst, (hk.plain b hb).1⟩ ⟨c, hlast, (hv.plain c hc).1⟩
  have hne : ∀ b ∈ key ++ [ch ' '], decide (b ≠ ch '=') = true := by
    intro b hb
    rcases List.mem_append.1 hb with hb | hb
    · exact decide_eq_true (hk.plain b hb).2.2.1
    · rw [List.mem_singleton.1 hb]; decide
  have hsplit : key ++ str " = " ++ val = (key ++ [ch ' ']) ++ ch '=' :: ([ch ' '] ++ val) := by rw [hsep]; simp
  have heq : decide (ch '=' ≠ ch '=') = false := by decide
  have hkey : (key ++ str " = " ++ val).takeWhile (fun b => decide (b ≠ ch '=')) = key ++ [ch ' '] := by
    rw [hsplit, List.takeWhile_append_of_pos hne, List.takeWhile_cons, heq]
    simp
  have hval : ((key ++ str " = " ++ val).dropWhile (fun b => decide (b ≠ ch '='))).drop 1 = [ch ' '] ++ val := by
    rw [hsplit, List.dropWhile_append_of_pos hne, List.dropWhile_cons, heq]
    rfl
  have hplain := hk.plain b hb
  have hcomment : ¬(key ++ str " = " ++ val = [] ∨ (key ++ str " = " ++ val).head? = some (ch '#') ∨
      (key ++ str " = " ++ val).head? = some (ch ';')) := by
    rw [hfirst]
    rintro (h | h | h)
    · rw [h] at hfirst; cases hfirst
    · cases h; exact hplain.2.2.2.1 rfl
    · cases h; exact hplain.2.2.2.2.1 rfl
  have hmem : ch '=' ∈ key ++ str " = " ++ val := by rw [hsplit]; simp
  have htk := trim_word hk hnil hspace
  have htv := trim_word hv hspace hnil
  rw [List.nil_append] at htk
  rw [List.append_nil] at htv
  simp only [configLine, hline, if_neg hcomment, if_pos hmem, hkey, hval, htk, htv]

/-! ## The port and the token -/

theorem Word.no_nul {w : Bytes} (h : Word w) : 0 ∉ w := fun h0 => (h.plain 0 h0).2.1 rfl

theorem Word.no_newline {w : Bytes} (h : Word w) : newline ∉ w := fun h0 => (h.plain _ h0).2.2.2.2.2 rfl

theorem digit_plain : ∀ d : JsonText.Digit, isBlank (digitByte d) = false ∧ digitByte d ≠ 0 ∧ digitByte d ≠ ch '=' ∧
    digitByte d ≠ ch '#' ∧ digitByte d ≠ ch ';' ∧ digitByte d ≠ newline := by decide

theorem digit_unsigned : ∀ d : JsonText.Digit, isSpace (digitByte d) = false ∧ digitByte d ≠ ch '-' ∧
    digitByte d ≠ ch '+' := by decide

theorem word_fmtU (n : Nat) : Word (fmtU n) where
  ne_nil h := (JsonText.decimal_intPart n).ne_nil (List.map_eq_nil_iff.1 h)
  plain b hb := by
    obtain ⟨d, -, rfl⟩ := List.mem_map.1 hb
    exact digit_plain d

theorem word_randomToken (random : Fin 16 → UInt8) : Word (randomToken random) where
  ne_nil h := by simp [randomToken, List.ofFn_succ] at h
  plain b hb := by
    have hex : ∀ d : Fin 16, let b := (JsonText.HexDigit.mk d false).byte
        isBlank b = false ∧ b ≠ 0 ∧ b ≠ ch '=' ∧ b ≠ ch '#' ∧ b ≠ ch ';' ∧ b ≠ newline := by decide
    obtain ⟨c, -, hc⟩ := List.mem_flatMap.1 hb
    rcases List.mem_cons.1 hc with rfl | hc
    · exact hex _
    · rw [List.mem_singleton.1 hc]
      exact hex _

theorem length_randomToken (random : Fin 16 → UInt8) : (randomToken random).length = 32 := by
  simp [randomToken, List.ofFn_succ]

theorem length_fmtU {n : Nat} (h : n < 65536) : (fmtU n).length ≤ 5 := by
  rw [fmtU, List.length_map]
  exact JsonText.length_decimal (by decide) (by omega)

theorem takeSign_digits {n : Nat} : takeSign (fmtU n) = (false, fmtU n) := by
  obtain ⟨d, l, e⟩ := List.exists_cons_of_ne_nil (JsonText.decimal_intPart n).ne_nil
  have hd := digit_unsigned d
  rw [fmtU, e, List.map_cons, takeSign, if_neg hd.2.1, if_neg hd.2.2]

/-- **A printed port is read back.** -/
theorem parsePort_fmtU (p : UInt16) : parsePort (fmtU p.toNat) = p := by
  have hlt := p.toNat_lt
  have hspace : (fmtU p.toNat).dropWhile isSpace = fmtU p.toNat := by
    obtain ⟨d, l, e⟩ := List.exists_cons_of_ne_nil (JsonText.decimal_intPart p.toNat).ne_nil
    rw [fmtU, e, List.map_cons, List.dropWhile_cons, if_neg (by rw [(digit_unsigned d).1]; exact Bool.false_ne_true)]
  have hval : digitsVal (takeDigits (fmtU p.toNat)) = p.toNat := by
    rw [fmtU, takeDigits_map, JsonText.digitsVal_decimal]
  unfold parsePort strtoul10
  rw [cStr_of_no_nul _ (word_fmtU _).no_nul, hspace, takeSign_digits]
  dsimp only
  rw [hval, if_neg (by omega), if_neg Bool.false_ne_true]
  refine UInt16.toNat_inj.1 ?_
  rw [UInt64.toNat_toUInt16, UInt64.toNat_ofNat']
  omega

/-! ## What a generated file says -/

theorem newline_notMem_append {a b : Bytes} (ha : newline ∉ a) (hb : newline ∉ b) : newline ∉ a ++ b :=
  fun h => (List.mem_append.1 h).elim ha hb

/-- What the fixed lines come to, evaluated once. -/
theorem generatedTail_facts :
    generatedTail.map (fun l => (decide (newline ∉ l ∧ l.length + 1 < 512), lineSetting (l ++ [newline]))) =
      [(true, some (.logLevel, str "info")), (true, none), (true, none), (true, none), (true, none), (true, none),
        (true, none), (true, some (.tier, str "observe")), (true, none), (true, none), (true, none), (true, none),
        (true, none), (true, some (.clearLockscreenOnBoot, str "true")), (true, none), (true, none), (true, none),
        (true, none), (true, some (.keepAwakeMinutes, str "10")), (true, none), (true, none), (true, none), (true, none),
        (true, none), (true, some (.requireHmacAuth, str "false")), (true, none), (true, none),
        (true, some (.allowNandWrite, str "false")), (true, some (.allowOverclock, str "false")),
        (true, some (.allowHardware, str "false"))] := by
  decide +kernel

theorem generatedTail_lines : ∀ l ∈ generatedTail, newline ∉ l ∧ l.length + 1 < 512 := by
  have h := congrArg (fun l => (l.map Prod.fst).all id) generatedTail_facts
  rw [List.map_map, List.all_map] at h
  exact fun l hl => of_decide_eq_true (List.all_eq_true.1 h l hl)

theorem generatedTail_settings : (generatedTail.map (fun l => l ++ [newline])).filterMap lineSetting =
    [(.logLevel, str "info"), (.tier, str "observe"), (.clearLockscreenOnBoot, str "true"), (.keepAwakeMinutes, str "10"),
      (.requireHmacAuth, str "false"), (.allowNandWrite, str "false"), (.allowOverclock, str "false"),
      (.allowHardware, str "false")] := by
  have h := congrArg (fun l => (l.map Prod.snd).filterMap id) generatedTail_facts
  rw [List.map_map, List.filterMap_map] at h
  rw [List.filterMap_map]
  exact h

theorem generated_lines (p : UInt16) {token : Bytes} (ht : Word token) (hlen : token.length = 32) :
    ∀ l ∈ generatedHead p token ++ generatedTail, newline ∉ l ∧ l.length + 1 < 512 := by
  have hport := length_fmtU p.toNat_lt
  intro l hl
  rcases List.mem_append.1 hl with hl | hl
  · simp only [generatedHead, List.mem_cons, List.not_mem_nil, or_false] at hl
    rcases hl with rfl | rfl | rfl
    · decide
    · refine ⟨newline_notMem_append (by decide) (word_fmtU _).no_newline, ?_⟩
      have h9 : (str "port" ++ str " = ").length = 7 := by decide
      rw [List.length_append, h9]
      omega
    · rw [cStr_of_no_nul _ ht.no_nul]
      refine ⟨newline_notMem_append (by decide) ht.no_newline, ?_⟩
      have h10 : (str "token" ++ str " = ").length = 8 := by decide
      rw [List.length_append, h10, hlen]
      omega
  · exact generatedTail_lines l hl

theorem word_port : Word (str "port") := ⟨by decide, fun b hb => by revert b; decide +kernel⟩

theorem word_token : Word (str "token") := ⟨by decide, fun b hb => by revert b; decide +kernel⟩

theorem fileSettings_generated (p : UInt16) {token : Bytes} (ht : Word token) (hlen : token.length = 32) :
    fileSettings (generatedText p token) =
      [(.port, fmtU p.toNat), (.token, token), (.logLevel, str "info"), (.tier, str "observe"),
        (.clearLockscreenOnBoot, str "true"), (.keepAwakeMinutes, str "10"), (.requireHmacAuth, str "false"),
        (.allowNandWrite, str "false"), (.allowOverclock, str "false"), (.allowHardware, str "false")] := by
  have hhead : configLine (str "# switch-agentd config (auto-generated)" ++ [newline]) = none := by decide
  have hport := configLine_word word_port (word_fmtU p.toNat)
  have htoken := configLine_word word_token ht
  have hcomment : lineSetting (str "# switch-agentd config (auto-generated)" ++ [newline]) = none := by
    rw [lineSetting, hhead]
    rfl
  have hportset : lineSetting (str "port" ++ str " = " ++ fmtU p.toNat ++ [newline]) = some (.port, fmtU p.toNat) := by
    rw [lineSetting, hport]
    rfl
  have htokenset : lineSetting (str "token" ++ str " = " ++ token ++ [newline]) = some (.token, token) := by
    rw [lineSetting, htoken]
    rfl
  unfold fileSettings generatedText
  rw [fgetsLines_text 512 _ (generated_lines p ht hlen), List.map_append, List.filterMap_append, generatedTail_settings,
    generatedHead, cStr_of_no_nul _ ht.no_nul]
  simp only [List.map_cons, List.map_nil, List.filterMap_cons, List.filterMap_nil, hcomment, hportset, htokenset,
    List.cons_append, List.nil_append]

/-- **A generated file is the initial configuration with its port and its token.** -/
theorem foldl_generated (p : UInt16) {token : Bytes} (ht : Word token) (hlen : token.length = 32) :
    (fileSettings (generatedText p token)).foldl BootConfig.set .initial =
      { BootConfig.initial with port := p, token := token } := by
  have hflag : parseFlag (str "true") = true ∧ parseFlag (str "false") = false := by decide
  have hlevel : parseLogLevel (str "info") = 2 := by decide
  have htier : parseTier (str "observe") = .observe := by decide
  have hawake : parseKeepAwake (str "10") = 10 := by decide
  rw [fileSettings_generated p ht hlen]
  simp only [List.foldl_cons, List.foldl_nil, BootConfig.set, parsePort_fmtU, hflag.1, hflag.2, hlevel, htier, hawake]
  rfl

/-! ## What a file says about each setting -/

/-- The value of a setting: the last line for it counts. -/
def valueOf (k : Setting) (l : List (Setting × Bytes)) : Option Bytes :=
  (Trace.latest (fun p : Setting × Bytes => decide (p.1 = k)) l).map Prod.snd

/-- **A field that one setting writes holds the value of its last line.** -/
theorem foldl_field {τ : Type} (field : BootConfig → τ) (k : Setting) (read : Bytes → τ)
    (hset : ∀ cfg p, field (cfg.set p) = if p.1 = k then read p.2 else field cfg) (l : List (Setting × Bytes))
    (cfg : BootConfig) : field (l.foldl BootConfig.set cfg) = ((valueOf k l).map read).getD (field cfg) := by
  induction l using List.reverseRecOn with
  | nil => rfl
  | append_singleton l p ih =>
    rw [List.foldl_append, List.foldl_cons, List.foldl_nil, hset, ih]
    unfold valueOf
    rw [Trace.latest_snoc]
    by_cases h : p.1 = k <;> simp [h]

theorem field_initial_iff {τ : Type} (field : BootConfig → τ) (k : Setting) (read : Bytes → τ)
    (hset : ∀ cfg p, field (cfg.set p) = if p.1 = k then read p.2 else field cfg) (l : List (Setting × Bytes)) :
    field (l.foldl BootConfig.set .initial) = field .initial ↔
      ∀ v, valueOf k l = some v → read v = field .initial := by
  rw [foldl_field field k read hset]
  cases valueOf k l <;> simp

/-- Every setting but the port and the token, where the file has it, has the value a generated file gives it. -/
structure Ordinary (l : List (Setting × Bytes)) : Prop where
  logLevel : ∀ v, valueOf .logLevel l = some v → parseLogLevel v = 2
  tier : ∀ v, valueOf .tier l = some v → parseTier v = .observe
  allowNandWrite : ∀ v, valueOf .allowNandWrite l = some v → parseFlag v = false
  allowOverclock : ∀ v, valueOf .allowOverclock l = some v → parseFlag v = false
  allowHardware : ∀ v, valueOf .allowHardware l = some v → parseFlag v = false
  requireHmacAuth : ∀ v, valueOf .requireHmacAuth l = some v → parseFlag v = false
  enablePsc : ∀ v, valueOf .enablePsc l = some v → parseFlag v = false
  enableUsb : ∀ v, valueOf .enableUsb l = some v → parseFlag v = false
  clearLockscreenOnBoot : ∀ v, valueOf .clearLockscreenOnBoot l = some v → parseFlag v = true
  keepAwakeMinutes : ∀ v, valueOf .keepAwakeMinutes l = some v → parseKeepAwake v = 10

theorem ordinary_iff (l : List (Setting × Bytes)) (p : UInt16) (token : Bytes) (emummc : Bool) :
    { l.foldl BootConfig.set .initial with port := p, token := token, isEmummc := emummc } =
      { BootConfig.initial with port := p, token := token, isEmummc := emummc } ↔ Ordinary l := by
  have logLevel := field_initial_iff (·.logLevel) .logLevel parseLogLevel (by rintro cfg ⟨k, v⟩; cases k <;> rfl) l
  have tier := field_initial_iff (·.tier) .tier parseTier (by rintro cfg ⟨k, v⟩; cases k <;> rfl) l
  have nand := field_initial_iff (·.allowNandWrite) .allowNandWrite parseFlag (by rintro cfg ⟨k, v⟩; cases k <;> rfl) l
  have clock := field_initial_iff (·.allowOverclock) .allowOverclock parseFlag (by rintro cfg ⟨k, v⟩; cases k <;> rfl) l
  have hardware := field_initial_iff (·.allowHardware) .allowHardware parseFlag (by rintro cfg ⟨k, v⟩; cases k <;> rfl) l
  have hmac := field_initial_iff (·.requireHmacAuth) .requireHmacAuth parseFlag (by rintro cfg ⟨k, v⟩; cases k <;> rfl) l
  have psc := field_initial_iff (·.enablePsc) .enablePsc parseFlag (by rintro cfg ⟨k, v⟩; cases k <;> rfl) l
  have usb := field_initial_iff (·.enableUsb) .enableUsb parseFlag (by rintro cfg ⟨k, v⟩; cases k <;> rfl) l
  have clear := field_initial_iff (·.clearLockscreenOnBoot) .clearLockscreenOnBoot parseFlag
    (by rintro cfg ⟨k, v⟩; cases k <;> rfl) l
  have awake := field_initial_iff (·.keepAwakeMinutes) .keepAwakeMinutes parseKeepAwake
    (by rintro cfg ⟨k, v⟩; cases k <;> rfl) l
  rw [BootConfig.mk.injEq, AgentConfig.mk.injEq]
  constructor
  · rintro ⟨⟨-, htier, hnand, hclock, hhardware, hhmac, -⟩, -, hlevel, hclear, hawake, hpsc, husb⟩
    exact ⟨logLevel.1 hlevel, tier.1 htier, nand.1 hnand, clock.1 hclock, hardware.1 hhardware, hmac.1 hhmac, psc.1 hpsc,
      usb.1 husb, clear.1 hclear, awake.1 hawake⟩
  · intro h
    exact ⟨⟨rfl, tier.2 h.tier, nand.2 h.allowNandWrite, clock.2 h.allowOverclock, hardware.2 h.allowHardware,
      hmac.2 h.requireHmacAuth, rfl⟩, rfl, logLevel.2 h.logLevel, clear.2 h.clearLockscreenOnBoot,
      awake.2 h.keepAwakeMinutes, psc.2 h.enablePsc, usb.2 h.enableUsb⟩

/-! ## The next boot -/

/-- The file gives a token. -/
def HasToken (l : List (Setting × Bytes)) : Prop := ∃ v, valueOf .token l = some v ∧ v ≠ []

theorem hasToken_iff (card : BootCard) : HasToken (cardSettings card) ↔ (readConfig card).token ≠ [] := by
  unfold HasToken readConfig
  rw [foldl_field (·.token) .token id (by rintro cfg ⟨k, v⟩; cases k <;> rfl)]
  cases valueOf .token (cardSettings card) <;> simp [BootConfig.initial]

/-- The write of this boot, if it makes one, succeeds. -/
def Written (boot : Boot) (card : BootCard) : Prop :=
  ¬HasToken (cardSettings card) →
    boot.write.Succeeds (generatedText (readConfig card).port (randomToken boot.random))

theorem apply_of_succeeds {w : Write} {text : Bytes} (old : Option Bytes) (h : w.Succeeds text) :
    w.apply old text = some text := by
  cases w with
  | refused => exact h.elim
  | stored n => exact congrArg some (List.take_of_length_le h)

theorem loadConfig_of_token {card : BootCard} (h : HasToken (cardSettings card)) (boot : Boot) :
    loadConfig boot card = ({ readConfig card with isEmummc := detectEmummc card }, card) := by
  rw [loadConfig, if_neg ((hasToken_iff card).1 h)]

theorem loadConfig_without_token {card : BootCard} {boot : Boot} (h : ¬HasToken (cardSettings card))
    (hw : Written boot card) :
    loadConfig boot card =
      ({ readConfig card with token := randomToken boot.random, isEmummc := detectEmummc card },
        { card with config := some (generatedText (readConfig card).port (randomToken boot.random)) }) := by
  rw [loadConfig, if_pos (not_not.1 (mt (hasToken_iff card).2 h))]
  dsimp only
  rw [apply_of_succeeds card.config (hw h)]

/-- After a generated file the next boot knows the port and the token, and nothing else of this one. -/
theorem next_boot_generated {card : BootCard} {boot : Boot} (boot' : Boot) (h : ¬HasToken (cardSettings card))
    (hw : Written boot card) :
    (loadConfig boot' (loadConfig boot card).2).1 =
      { BootConfig.initial with
        port := (readConfig card).port, token := randomToken boot.random, isEmummc := detectEmummc card } := by
  have hword := word_randomToken boot.random
  have hread : readConfig { card with config := some (generatedText (readConfig card).port (randomToken boot.random)) } =
      { BootConfig.initial with port := (readConfig card).port, token := randomToken boot.random } := by
    rw [← foldl_generated (readConfig card).port hword (length_randomToken _), readConfig, cardSettings, Option.map_some,
      Option.getD_some]
  rw [loadConfig_without_token h hw, loadConfig, hread, if_neg hword.ne_nil]
  rfl

/-- **The next boot runs on the configuration of this one exactly when the file gives a token, or every other setting it
gives has the generated value.** -/
theorem next_boot_iff (card : BootCard) (boot boot' : Boot) (h : Written boot card) :
    (loadConfig boot' (loadConfig boot card).2).1 = (loadConfig boot card).1 ↔
      HasToken (cardSettings card) ∨ Ordinary (cardSettings card) := by
  by_cases ht : HasToken (cardSettings card)
  · rw [loadConfig_of_token ht, loadConfig_of_token ht]
    exact ⟨fun _ => .inl ht, fun _ => rfl⟩
  · have hord := ordinary_iff (cardSettings card) (readConfig card).port (randomToken boot.random) (detectEmummc card)
    rw [next_boot_generated boot' ht h, loadConfig_without_token ht h]
    constructor
    · intro heq
      exact .inr (hord.1 heq.symm)
    · intro hor
      exact (hord.2 (hor.resolve_left ht)).symm

/-- A boot whose generator gives zeros and whose card takes every byte. -/
def plainBoot : Boot := ⟨fun _ => 0, .stored 40000⟩

theorem written_plainBoot (card : BootCard) : Written plainBoot card := by
  intro _
  have hlines := generated_lines (readConfig card).port (word_randomToken plainBoot.random) (length_randomToken _)
  have hlen : ∀ lines : List Bytes, (∀ l ∈ lines, newline ∉ l ∧ l.length + 1 < 512) →
      (linesText lines).length ≤ lines.length * 512 := by
    intro lines h
    induction lines with
    | nil => exact le_refl 0
    | cons l lines ih =>
      have hl := h l (by simp)
      have hrest := ih fun l' hl' => h l' (List.mem_cons_of_mem _ hl')
      unfold linesText at *
      rw [List.flatMap_cons, List.length_append, List.length_append, List.length_singleton, List.length_cons, Nat.succ_mul]
      omega
  have hcount : (generatedHead (readConfig card).port (randomToken plainBoot.random) ++ generatedTail).length = 33 := by
    simp [generatedHead, generatedTail]
  refine (hlen _ hlines).trans ?_
  rw [hcount]
  decide

/-- A card whose file gives a tier and a token. -/
def tokenCard : BootCard := ⟨some (linesText [str "tier = control", str "token = k"]), none, none⟩

theorem settings_tokenCard : cardSettings tokenCard = [(.tier, str "control"), (.token, str "k")] := by decide +kernel

/-- Without a file, and with one that gives a token. -/
theorem next_boot_iff_plain :
    (loadConfig plainBoot (loadConfig plainBoot ⟨none, none, none⟩).2).1 = (loadConfig plainBoot ⟨none, none, none⟩).1 ∧
    (loadConfig plainBoot (loadConfig plainBoot tokenCard).2).1 = (loadConfig plainBoot tokenCard).1 := by
  constructor
  · refine (next_boot_iff ⟨none, none, none⟩ plainBoot plainBoot (written_plainBoot _)).2 (.inr ?_)
    constructor <;> intro v hv <;> cases hv
  · refine (next_boot_iff tokenCard plainBoot plainBoot (written_plainBoot _)).2 (.inl ?_)
    rw [settings_tokenCard]
    exact ⟨str "k", rfl, by decide⟩

/-- **A tier written without a token is forgotten at the next boot.** -/
theorem tier_forgotten : ¬∀ (card : BootCard) (boot boot' : Boot), Written boot card →
    (loadConfig boot' (loadConfig boot card).2).1 = (loadConfig boot card).1 := by
  intro h
  have hfile : cardSettings ⟨some (str "tier = control" ++ [newline]), none, none⟩ = [(.tier, str "control")] := by
    decide +kernel
  have ht : ¬HasToken (cardSettings ⟨some (str "tier = control" ++ [newline]), none, none⟩) := by
    rw [hfile]
    rintro ⟨v, hv, -⟩
    cases hv
  have heq := congrArg (·.tier) (h ⟨some (str "tier = control" ++ [newline]), none, none⟩ plainBoot plainBoot
    (written_plainBoot _))
  rw [next_boot_generated plainBoot ht (written_plainBoot _), loadConfig_without_token ht (written_plainBoot _)] at heq
  dsimp only [readConfig] at heq
  rw [hfile] at heq
  exact absurd heq (by decide)

end Agent
end SwitchMcp
