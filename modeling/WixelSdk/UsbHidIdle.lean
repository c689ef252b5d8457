import WixelSdk.UsbHidService

/-!
# The idle duration of the keyboard

A keyboard report that is not marked as updated is sent again when more than the idle duration has
passed since the last one. The library compares 16 bits of the time. The clock here counts the
milliseconds without end, and getMs() returns its lowest 32 bits.
-/

namespace WixelSdk.UsbHid
open Usb Transition

def Port.Whole (p : Port) : Prop := ∀ i, (p.ep i).loaded = []

/-- A keyboard report: when the last one was sent and when this one was found to be due, whether it
was marked as updated, and the idle duration. -/
structure KeyboardReport where
  previous : ℕ
  due : ℕ
  updated : Bool
  idleDuration : ℕ
  deriving DecidableEq, Repr

/-- `checked` is when usbHidService() last looked at the clock, `reported` when the last keyboard
report was sent. -/
structure Clocked where
  station : Station
  checked : ℕ
  reported : ℕ
  reports : List KeyboardReport

inductive TimedAction
  | main (a : Action)
  | service (readings : Readings) (now now' : ℕ) (reads : List (List Interface))

namespace Clocked

variable (s : Clocked)

def keyboardPackets : ℕ := (s.station.port.ep .keyboard).committed.length

/-- The state after a call, with a new entry if it has sent a keyboard report. -/
def observe (now now' : ℕ) (t : Station) : Clocked :=
  if (t.port.ep .keyboard).committed.length = s.keyboardPackets then
    { s with station := t, checked := now }
  else
    { station := t
      checked := now
      reported := now'
      reports := s.reports ++ [⟨s.reported, now, s.station.port.updated .keyboard,
        t.port.device.vars.hidKeyboardIdleDuration.toNat⟩] }

def step (serial : ℕ → UInt8) (s : Clocked) : TimedAction → Option Clocked
  | .main a => (s.station.step serial a).map fun t => { s with station := t }
  | .service readings now now' reads =>
      (s.station.step serial (.service readings (.ofNat now) (.ofNat now') reads)).map
        (s.observe now now')

/-- There is no bus reset and no loss of power, and the clock does not go back. -/
def Allowed (s : Clocked) : TimedAction → Prop
  | .main (.service _ _ _ _) => False
  | .main _ => True
  | .service readings now now' _ =>
      readings.usbPowerPresent = true ∧ readings.rstif = false ∧
        max s.checked s.reported ≤ now ∧ now ≤ now'

/-- The computer is ready for a report, the idle duration is `d`, and the last look at the clock was
at most `g` ms ago. -/
def Regular (serial : ℕ → UInt8) (d g : ℕ) (s : Clocked) : TimedAction → Prop
  | .service readings now now' reads =>
      (s.station.port.ep .keyboard).waiting.length < 2 ∧ now ≤ s.checked + g ∧
      ∀ t ∈ s.step serial (.service readings now now' reads),
        t.station.port.device.usbDeviceState = .configured ∧
        t.station.port.device.vars.hidKeyboardIdleDuration.toNat = d
  | _ => True

instance (a : TimedAction) : Decidable (s.Allowed a) := by
  rcases a with (_ | _ | _ | _) | _ <;> dsimp only [Allowed] <;> infer_instance

instance (serial : ℕ → UInt8) (d g : ℕ) (a : TimedAction) : Decidable (s.Regular serial d g a) := by
  cases a <;> dsimp only [Regular] <;> infer_instance

/-- Between two calls no report is half written, and the library has 16 bits of the time of the last
one. -/
structure Invariant : Prop where
  whole : s.station.port.Whole
  time : s.station.port.hidKeyboardLastReportTime = .ofNat s.reported

end Clocked

variable {p q : Port} {now now' : UInt32}

theorem Port.Whole.idle (h : p.Whole) (hi : Idle p q) : q.Whole :=
  fun i => (hi.ep i).loaded.trans (h i)

theorem Port.Whole.serves {i : Interface} (h : p.Whole) (hs : Serves i p q) : q.Whole := by
  rcases hs.outcome with hidle | ⟨m, hidle, -, hsend⟩
  · exact h.idle hidle
  · intro j
    by_cases hj : j = i
    · rw [hj, hsend.loaded]
    · exact (hsend.others j hj).loaded.trans (h.idle hidle j)

theorem elapsed_toNat {now last : ℕ} (h : last ≤ now) :
    (UInt32.ofNat now - (UInt16.ofNat last).toUInt32).toUInt16.toNat = (now - last) % 65536 := by
  rw [UInt32.toNat_toUInt16, UInt32.toNat_sub, UInt16.toNat_toUInt32, UInt16.toNat_ofNat',
    UInt32.toNat_ofNat']
  omega

/-- The keyboard report is sent if it is due and there is room for it. -/
theorem serviceKeyboard_cases (now now' : UInt32) (hloaded : (p.ep .keyboard).loaded = []) :
    ((p.serviceKeyboard now now').hidKeyboardLastReportTime = p.hidKeyboardLastReportTime ∧
      ((p.serviceKeyboard now now').ep .keyboard).committed = (p.ep .keyboard).committed ∧
      ((p.ep .keyboard).waiting.length < 2 → ¬ p.idleExpired now)) ∨
    ((p.serviceKeyboard now now').hidKeyboardLastReportTime = now'.toUInt16 ∧
      ((p.serviceKeyboard now now').ep .keyboard).committed.length =
        (p.ep .keyboard).committed.length + 1 ∧
      (p.updated .keyboard = true ∨ p.idleExpired now)) := by
  have hq := idle_selected p .keyboard
  have hindex := selected_usbindex p .keyboard
  unfold Port.serviceKeyboard
  dsimp only
  generalize (p.select Interface.keyboard.endpoint).host = q at hq hindex ⊢
  by_cases hdue : (q.updated .keyboard = true ∨ q.idleExpired now) ∧ q.inpktRdy = false
  · rw [if_pos hdue]
    have hsend := sends_of_free hq hindex hloaded hdue.2
    refine Or.inr ⟨rfl, ?_, ?_⟩
    · rw [← (hq.ep .keyboard).committed]
      exact (congrArg List.length hsend.committed).trans List.length_append
    · rw [← hq.updated, ← hq.idleExpired]
      exact hdue.1
  · rw [if_neg hdue]
    refine Or.inl ⟨hq.time, (hq.ep .keyboard).committed, fun hfree hexpired => hdue ⟨Or.inr ?_, ?_⟩⟩
    · exact (hq.idleExpired now).mpr hexpired
    · exact inpktRdy_of_free hq hindex hfree

theorem sendInput_time (p : Port) (i : Interface) :
    (p.sendInput i).hidKeyboardLastReportTime = p.hidKeyboardLastReportTime := by
  have hwrite : ∀ (bytes : List UInt8) (p : Port),
      (p.usbWriteFifo i bytes).hidKeyboardLastReportTime = p.hidKeyboardLastReportTime := by
    intro bytes
    induction bytes with
    | nil => exact fun _ => rfl
    | cons byte bytes ih => exact fun p => (ih (p.writeFifo i byte)).trans (Idle.host p).time
  have hset : ∀ q : Port, q.setInpktRdy.hidKeyboardLastReportTime = q.hidKeyboardLastReportTime := by
    intro q
    unfold Port.setInpktRdy
    cases Interface.ofEndpoint? q.device.usbindex <;> rfl
  exact (hset _).trans ((Idle.host _).time.trans (hwrite _ p))

theorem serviceInput_time (p : Port) (i : Interface) :
    (p.serviceInput i).hidKeyboardLastReportTime = p.hidKeyboardLastReportTime := by
  have hq := (idle_selected p i).time
  unfold Port.serviceInput
  dsimp only
  split_ifs
  · exact (sendInput_time _ i).trans hq
  · exact hq

/-- The condition of the library, with the idle duration and the time of the last report. -/
def expired (duration last : UInt16) (now : UInt32) : Prop :=
  duration ≠ 0 ∧ (now - last.toUInt32).toUInt16 > duration

theorem usbHidService_keyboard (h : p.Whole) (serial : ℕ → UInt8) (r : Readings)
    (now now' : UInt32) :
    let q := p.usbHidService serial r now now'
    let due := expired q.device.vars.hidKeyboardIdleDuration p.hidKeyboardLastReportTime now
    q.Whole ∧
    ((q.hidKeyboardLastReportTime = p.hidKeyboardLastReportTime ∧
      (q.ep .keyboard).committed.length = (p.ep .keyboard).committed.length ∧
      (q.device.usbDeviceState = .configured → (p.ep .keyboard).waiting.length < 2 → ¬ due)) ∨
    (q.hidKeyboardLastReportTime = now'.toUInt16 ∧
      (q.ep .keyboard).committed.length = (p.ep .keyboard).committed.length + 1 ∧
      (p.updated .keyboard = true ∨ due))) := by
  have h₀ : (p.poll serial r).Whole := h
  have hsame : (p.poll serial r).ep = p.ep ∧ (p.poll serial r).updated = p.updated ∧
      (p.poll serial r).hidKeyboardLastReportTime = p.hidKeyboardLastReportTime := ⟨rfl, rfl, rfl⟩
  unfold Port.usbHidService
  dsimp only
  generalize p.poll serial r = q at h₀ hsame ⊢
  obtain ⟨hep, hupdated, htime⟩ := hsame
  by_cases hconf : q.device.usbDeviceState ≠ .configured
  · rw [if_pos hconf]
    exact ⟨h₀, Or.inl ⟨htime, by rw [hep], fun hc => absurd hc hconf⟩⟩
  · rw [if_neg hconf, ← hep, ← hupdated, ← htime]
    have hk := serves_serviceKeyboard q now now' (h₀ .keyboard)
    have hcases := serviceKeyboard_cases now now' (h₀ .keyboard)
    have h₁ := h₀.serves hk
    have hvars₁ : (q.serviceKeyboard now now').device.vars = q.device.vars := by rw [hk.device]
    generalize q.serviceKeyboard now now' = q₁ at hk h₁ hcases hvars₁ ⊢
    have hm : Serves .mouse q₁ q₁.serviceMouse :=
      serves_serviceInput q₁ (h₁ .mouse)
    have htime₂ : q₁.serviceMouse.hidKeyboardLastReportTime = _ := serviceInput_time q₁ .mouse
    have hvars₂ : q₁.serviceMouse.device.vars = q₁.device.vars := by rw [hm.device]
    have h₂ := h₁.serves hm
    generalize q₁.serviceMouse = q₂ at hm h₂ htime₂ hvars₂ ⊢
    have hj : Serves .joystick q₂ q₂.serviceJoystick :=
      serves_serviceInput q₂ (h₂ .joystick)
    have htime₃ : q₂.serviceJoystick.hidKeyboardLastReportTime = _ := serviceInput_time q₂ .joystick
    have hvars₃ : q₂.serviceJoystick.device.vars = q₂.device.vars := by rw [hj.device]
    have hcommitted : (q₂.serviceJoystick.ep .keyboard).committed = (q₁.ep .keyboard).committed :=
      (hj.other (by decide)).1.committed.trans (hm.other (by decide)).1.committed
    rw [hcommitted, htime₃, htime₂, hvars₃, hvars₂, hvars₁]
    refine ⟨h₂.serves hj, ?_⟩
    rcases hcases with ⟨ht, hc, hfree⟩ | ⟨ht, hc, hdue⟩
    · exact Or.inl ⟨ht, congrArg List.length hc, fun _ => hfree⟩
    · exact Or.inr ⟨ht, hc, hdue⟩

theorem expired_iff {duration : UInt16} {now last : ℕ} (h : last ≤ now) :
    expired duration (.ofNat last) (.ofNat now) ↔
      duration.toNat ≠ 0 ∧ duration.toNat < (now - last) % 65536 := by
  unfold expired
  rw [← elapsed_toNat h, ← UInt16.lt_iff_toNat_lt, ne_eq, ne_eq, ← UInt16.toNat_inj]
  rfl

namespace Clocked

variable {s t : Clocked}

/-- More than the idle duration has passed, as far as 16 bits can tell. -/
def Overdue (duration last now : ℕ) : Prop := duration ≠ 0 ∧ duration < (now - last) % 65536

/-- What a call does to the times: either no keyboard report is sent, and then it is not overdue if
there is room for one, or it is sent because it is marked or overdue. -/
structure Looks (now now' : ℕ) (s t : Clocked) : Prop where
  checked : t.checked = now
  outcome :
    (t.reported = s.reported ∧ t.reports = s.reports ∧
      (t.station.port.device.usbDeviceState = .configured →
        (s.station.port.ep .keyboard).waiting.length < 2 →
        ¬ Overdue t.station.port.device.vars.hidKeyboardIdleDuration.toNat s.reported now)) ∨
    (t.reported = now' ∧ ∃ e : KeyboardReport, t.reports = s.reports ++ [e] ∧
      e.previous = s.reported ∧ e.due = now ∧
      (e.updated = true ∨ Overdue e.idleDuration s.reported now))

theorem observe_same {t : Station} {now now' : ℕ}
    (h : (t.port.ep .keyboard).committed.length = s.keyboardPackets) :
    s.observe now now' t = { s with station := t, checked := now } := if_pos h

theorem observe_sent {t : Station} {now now' : ℕ}
    (h : (t.port.ep .keyboard).committed.length = s.keyboardPackets + 1) :
    s.observe now now' t =
      { station := t
        checked := now
        reported := now'
        reports := s.reports ++ [⟨s.reported, now, s.station.port.updated .keyboard,
          t.port.device.vars.hidKeyboardIdleDuration.toNat⟩] } := by
  apply if_neg
  omega

theorem Invariant.service (h : s.Invariant) {serial : ℕ → UInt8} {readings : Readings}
    {now now' : ℕ} {reads : List (List Interface)}
    (ha : s.Allowed (.service readings now now' reads))
    (ht : s.step serial (.service readings now now' reads) = some t) :
    t.Invariant ∧ Looks now now' s t := by
  obtain ⟨-, -, hnow, hnow'⟩ := ha
  have hlast : s.reported ≤ now := (le_max_right _ _).trans hnow
  have hwhole : (s.station.port.schedule reads).Whole := h.whole
  have hcall := usbHidService_keyboard hwhole serial readings (.ofNat now) (.ofNat now')
  obtain rfl := Option.some.inj ht
  dsimp only at hcall
  obtain ⟨hkeep, hcall⟩ := hcall
  have hexpired : ∀ duration : UInt16,
      expired duration (s.station.port.schedule reads).hidKeyboardLastReportTime (.ofNat now) ↔
        Overdue duration.toNat s.reported now := fun duration => by
    change expired duration s.station.port.hidKeyboardLastReportTime _ ↔ _
    rw [h.time]
    exact expired_iff hlast
  have hlow : (UInt32.ofNat now').toUInt16 = .ofNat now' := by
    rw [← UInt16.toNat_inj, UInt32.toNat_toUInt16, UInt32.toNat_ofNat', UInt16.toNat_ofNat']
    omega
  rw [hexpired, hlow] at hcall
  rcases hcall with ⟨htime, hlen, hfree⟩ | ⟨htime, hlen, hdue⟩
  · rw [observe_same hlen]
    exact ⟨⟨hkeep, htime.trans h.time⟩, rfl, Or.inl ⟨rfl, rfl, hfree⟩⟩
  · rw [observe_sent hlen]
    exact ⟨⟨hkeep, htime⟩, rfl, Or.inr ⟨rfl, _, rfl, rfl, rfl, hdue⟩⟩

variable {serial : ℕ → UInt8}

/-- Only a call of usbHidService() looks at the clock. -/
theorem Invariant.step {a : TimedAction} (h : s.Invariant) (ha : s.Allowed a)
    (ht : s.step serial a = some t) : t.Invariant ∧
    ((t.checked = s.checked ∧ t.reported = s.reported ∧ t.reports = s.reports) ∨
      ∃ readings now now' reads, a = .service readings now now' reads ∧ Looks now now' s t) := by
  cases a with
  | service readings now now' reads =>
      obtain ⟨hi, hlooks⟩ := h.service ha ht
      exact ⟨hi, Or.inr ⟨readings, now, now', reads, rfl, hlooks⟩⟩
  | main a =>
      obtain ⟨u, hu, rfl⟩ := Option.map_eq_some_iff.mp ht
      refine ⟨?_, Or.inl ⟨rfl, rfl, rfl⟩⟩
      cases a with
      | service => exact absurd ha id
      | store i offset byte =>
          obtain rfl := Option.some.inj hu
          exact ⟨h.whole, h.time⟩
      | update i =>
          obtain rfl := Option.some.inj hu
          exact ⟨h.whole, h.time⟩
      | hostRead i =>
          obtain rfl := Option.some.inj hu
          exact ⟨h.whole.idle (Idle.hostRead s.station.port i), h.time⟩

/-- An unmarked report does not come too early. -/
def Patient (s : Clocked) : Prop :=
  ∀ e ∈ s.reports, e.updated = true ∨ 0 < e.idleDuration ∧ e.previous + e.idleDuration < e.due

theorem Patient.step {a : TimedAction} (hp : s.Patient) (h : s.Invariant) (ha : s.Allowed a)
    (ht : s.step serial a = some t) : t.Patient := by
  obtain ⟨-, ⟨-, -, hreports⟩ | ⟨readings, now, now', reads, rfl, hlooks⟩⟩ := h.step ha ht
  · unfold Patient
    rw [hreports]
    exact hp
  · unfold Patient
    rcases hlooks.outcome with ⟨-, hreports, -⟩ | ⟨-, e, hreports, hprevious, hdue, hwhy⟩
    · rw [hreports]
      exact hp
    · rw [hreports]
      intro e' he'
      rcases List.mem_append.mp he' with he' | he'
      · exact hp e' he'
      · obtain rfl := List.mem_singleton.mp he'
        refine hwhy.imp_right fun hover => ⟨Nat.pos_of_ne_zero hover.1, ?_⟩
        have hlt := hover.2.trans_le (Nat.mod_le _ _)
        rw [hprevious, hdue]
        omega

/-- After the first report, no report comes later than the idle duration and one interval between
two calls after the one before it. -/
structure Paced (d g : ℕ) (s : Clocked) : Prop where
  gaps : ∀ e ∈ s.reports.tail, e.due ≤ e.previous + d + g
  recent : s.reports ≠ [] → s.checked ≤ s.reported + d

theorem Paced.step {d g : ℕ} {a : TimedAction} (hd : 0 < d) (hdg : d + g < 65536)
    (hp : s.Paced d g) (h : s.Invariant) (ha : s.Allowed a) (hreg : s.Regular serial d g a)
    (ht : s.step serial a = some t) : t.Paced d g := by
  obtain ⟨-, ⟨hchecked, hreported, hreports⟩ | ⟨readings, now, now', reads, rfl, hlooks⟩⟩ :=
    h.step ha ht
  · exact ⟨hreports ▸ hp.gaps, by rw [hchecked, hreported, hreports]; exact hp.recent⟩
  · obtain ⟨hfree, hnow, hafter⟩ := hreg
    obtain ⟨hconf, hduration⟩ := hafter t ht
    obtain ⟨-, -, hlast, hlater⟩ := ha
    have hsince : s.reports ≠ [] → now ≤ s.reported + d + g := fun hne => by
      have hrecent := hp.recent hne
      omega
    rcases hlooks.outcome with ⟨hreported, hreports, hquiet⟩ |
      ⟨hreported, e, hreports, hprevious, hdue, -⟩
    · refine ⟨hreports ▸ hp.gaps, fun hne => ?_⟩
      have hnot := hquiet hconf hfree
      have hle := hsince (hreports ▸ hne)
      have helapsed : (now - s.reported) % 65536 = now - s.reported := by
        apply Nat.mod_eq_of_lt
        omega
      rw [hduration, Overdue, helapsed] at hnot
      rw [hlooks.checked, hreported]
      omega
    · refine ⟨?_, fun _ => ?_⟩
      · rw [hreports]
        intro e' he'
        cases hs : s.reports with
        | nil =>
            rw [hs] at he'
            cases he'
        | cons e₀ rest =>
            rw [hs] at he'
            rcases List.mem_append.mp he' with he' | he'
            · exact hp.gaps e' (hs ▸ he')
            · obtain rfl := List.mem_singleton.mp he'
              rw [hdue, hprevious]
              exact hsince (hs ▸ List.cons_ne_nil _ _)
      · rw [hlooks.checked, hreported]
        omega

def start (d : Hid) (now : ℕ) : Clocked := ⟨.start d, now, 0, []⟩

theorem invariant_start (d : Hid) (now : ℕ) : (start d now).Invariant := ⟨fun _ => rfl, rfl⟩

/-- A keyboard report that is not marked as updated is sent only when more than the idle duration has
passed since the last report. If the computer takes the reports, the idle duration is `duration`,
which is not 0, and the library is called at least every `g` ms, no report comes more than
`duration + g` ms after the one before it, in spite of the 16 bits. -/
theorem keyboard_idle_reports (serial : ℕ → UInt8) (d : Hid) (now : ℕ) {s : Clocked}
    (hr : Run (step serial) Allowed (start d now) s) :
    (∀ e ∈ s.reports, e.updated = true ∨
      0 < e.idleDuration ∧ e.previous + e.idleDuration < e.due) ∧
    ∀ duration g, 0 < duration → duration + g < 65536 →
      Run (step serial) (fun s a => s.Allowed a ∧ s.Regular serial duration g a) (start d now) s →
      (∀ e ∈ s.reports.tail, e.due ≤ e.previous + duration + g) ∧
        (s.reports ≠ [] → s.checked ≤ s.reported + duration) := by
  have h₀ := invariant_start d now
  have hrun := hr.strengthen h₀ fun _ _ _ hi ha ht => (hi.step ha ht).1
  refine ⟨hrun.invariant (I := Patient) nofun fun _ _ _ hp ha ht => hp.step ha.2 ha.1 ht, ?_⟩
  intro duration g hduration hg hregular
  have hpaced := (hregular.strengthen h₀ fun _ _ _ hi ha ht => (hi.step ha.1 ht).1).invariant
    (I := Paced duration g) ⟨nofun, fun hne => absurd rfl hne⟩
    fun _ _ _ hp ha ht => hp.step hduration hg ha.2 ha.1.1 ha.1.2 ht
  exact ⟨hpaced.gaps, hpaced.recent⟩

/-- Nothing is typed for a second. -/
theorem keyboard_idle_reports_twice :
    ∃ s : Clocked, s.reports = [⟨0, 501, false, 500⟩, ⟨502, 1003, false, 500⟩] ∧
      (∀ e ∈ s.reports, e.updated = true ∨
        0 < e.idleDuration ∧ e.previous + e.idleDuration < e.due) ∧
      ∀ e ∈ s.reports.tail, e.due ≤ e.previous + 500 + 501 := by
  have hrun : (exec (step fun _ => 0)
      (fun s a => s.Allowed a ∧ s.Regular (fun _ => 0) 500 501 a) (start Station.configured 0)
      [.service Station.quiet 0 0 [], .service Station.quiet 501 502 [], .main (.hostRead .keyboard),
        .service Station.quiet 1002 1002 [], .service Station.quiet 1003 1003 []]).map
      Clocked.reports = some [⟨0, 501, false, 500⟩, ⟨502, 1003, false, 500⟩] := by
    decide +kernel
  obtain ⟨s, hr, hs⟩ := exists_run_of_exec hrun
  obtain ⟨hearly, hlate⟩ := keyboard_idle_reports (fun _ => 0) Station.configured 0
    (hr.mono fun _ _ ha => ha.1)
  exact ⟨s, hs, hearly, (hlate 500 501 (by decide) (by decide) hr).1⟩

end Clocked
end WixelSdk.UsbHid
