import DatagramSession.Proofs.Identity
/-!
# Which control frames a client answers

`Hearing` is a client beside the control frames that it has applied since it connected, of those
that ask for a confirmation.  The newest of them is its watermark, whatever it does and whatever it
is sent (`Sound`).  Until its session is over it answers every such frame, also a repeated one, and
applies it if it is newer than the last one; afterwards it answers none (`answered_iff_connected`).
As a kick ends the session, its confirmation is not given again when it was lost
(`kick_answered_once`).
-/
namespace DatagramSession

namespace Client

/-- The client with its answer to a control frame. -/
def answered (c : Client) (f : ControlFrame) : Client :=
  ({ c with lastReceived := c.now }.send (.control (.numbered f.order .confirm true))).2

/-- What is heard is answered in any case, and applied if it is newer than the last one. -/
theorem takeDatagram_of_hears? {c : Client} {bytes : List UInt8} {f : ControlFrame}
    (heard : c.hears? bytes = some f) :
    c.takeDatagram c.server bytes =
      if f.order.isNewer c.controlWatermark then
        { c.answered f with controlWatermark := some f.order }.applyControl f.message
      else c.answered f := by
  obtain ⟨on, frame, asks⟩ := hears?_eq_some.1 heard
  rw [takeDatagram_of_frame frame on, takeControl_eq _ asks]
  rfl

end Client

/-- A client and the control frames that it has applied since it connected, of those that ask for a
confirmation. -/
structure Hearing where
  client : Client
  applied : List ControlFrame := []

namespace Hearing

open Sessions (datagramOf welcomeOf)

/-- A session that has just begun. -/
def connected (c : Client) (nonce : Nonce) : Hearing where
  client := (c.connect nonce).2

/-- The frame is newer than the last one. -/
def isNews (x : Hearing) (f : ControlFrame) : Bool :=
  f.order.isNewer (x.applied.getLast?.map ControlFrame.order)

/-- A datagram arrives. -/
def hear (x : Hearing) (source : Address) (bytes : List UInt8) : Hearing where
  client := x.client.takeDatagram source bytes
  applied :=
    if source = x.client.server then x.applied ++ ((x.client.hears? bytes).filter x.isNews).toList
    else x.applied

/-- One thing that happens.  Anybody may send anything, in the name of the server too. -/
inductive Step : Hearing → Hearing → Prop where
  | connect (x : Hearing) (nonce : Nonce) : Step x (connected x.client nonce)
  | does (x : Hearing) (c : Client) (does : Client.Does x.client c) : Step x { x with client := c }
  | hear (x : Hearing) (source : Address) (bytes : List UInt8) : Step x (x.hear source bytes)
  /-- The network takes what was sent. -/
  | carry (x : Hearing) :
      Step x { x with client := { x.client with transport := x.client.transport.takeSent.2 } }

inductive Run (x₀ : Hearing) : Hearing → Prop where
  | start : Run x₀ x₀
  | next {x y : Hearing} : Run x₀ x → Step x y → Run x₀ y

/-- The watermark is the frame that was applied last, and after a kick the session is over. -/
structure Sound (x : Hearing) : Prop where
  watermark : x.client.controlWatermark = x.applied.getLast?.map ControlFrame.order
  kicked : ∀ f ∈ x.applied, ∀ reason, f.message = .kick reason → x.client.state = .disconnected

section
variable {x y : Hearing} {bytes : List UInt8} {f : ControlFrame}

/-- After the session nothing is heard. -/
theorem hear_of_disconnected (off : x.client.state = .disconnected) (source : Address)
    (bytes : List UInt8) :
    x.hear source bytes = x := by
  have unheard : x.client.hears? bytes = none := if_pos off
  simp [hear, unheard, Client.takeDatagram_of_disconnected off]

theorem sound_connected (c : Client) (nonce : Nonce) : (connected c nonce).Sound :=
  ⟨rfl, nofun⟩

namespace Sound

theorem isNewer (h : x.Sound) (f : ControlFrame) :
    f.order.isNewer x.client.controlWatermark = x.isNews f := by
  rw [isNews, h.watermark]

theorem hear_of_hears? (h : x.Sound) (heard : x.client.hears? bytes = some f) :
    x.hear x.client.server bytes =
      if x.isNews f then
        { client :=
            { x.client.answered f with controlWatermark := some f.order }.applyControl f.message
          applied := x.applied ++ [f] }
      else { x with client := x.client.answered f } := by
  rw [hear, Client.takeDatagram_of_hears? heard, h.isNewer, heard, if_pos rfl]
  by_cases news : x.isNews f = true
  · simp [news]
  · simp [news]

theorem mute (h : x.Sound) {c : Client} (mute : Client.Mute x.client c) :
    { x with client := c }.Sound := by
  refine ⟨mute.keeps.trans h.watermark, fun f mem reason kick => ?_⟩
  by_contra on
  exact on ((mute.stays on).1.trans (h.kicked f mem reason kick))

theorem hear (h : x.Sound) (source : Address) (bytes : List UInt8) :
    (x.hear source bytes).Sound := by
  by_cases off : x.client.state = .disconnected
  · rwa [hear_of_disconnected off]
  · -- The session is on, so no kick was applied before.
    have none_kicked : ∀ f ∈ x.applied, ∀ reason, f.message ≠ .kick reason :=
      fun f mem reason kick => off (h.kicked f mem reason kick)
    by_cases own : source = x.client.server
    · subst own
      cases heard : x.client.hears? bytes with
      | none =>
        have same : (x.hear x.client.server bytes).applied = x.applied := by
          simp [Hearing.hear, heard]
        refine ⟨?_, fun f mem reason kick => absurd kick (none_kicked f (same ▸ mem) reason)⟩
        rw [same]
        exact (Client.quiet_of_hears?_eq_none heard).2.trans h.watermark
      | some f =>
        rw [h.hear_of_hears? heard]
        split
        case isTrue =>
          constructor
          · simp [Client.controlWatermark_applyControl]
          · intro g mem reason kick
            rcases List.mem_append.1 mem with old | new
            · exact absurd kick (none_kicked g old reason)
            · obtain rfl := List.mem_singleton.1 new
              simp only [kick]
              exact Client.state_close _ reason
        case isFalse =>
          exact ⟨h.watermark, fun g mem reason kick => absurd kick (none_kicked g mem reason)⟩
    · have same : x.hear source bytes = x := by simp [Hearing.hear, own, Client.takeDatagram]
      rwa [same]

end Sound

theorem step_sound (step : Step x y) (h : x.Sound) : y.Sound := by
  cases step with
  | connect nonce => exact sound_connected x.client nonce
  | does c does => exact h.mute does.mute
  | hear source bytes => exact h.hear source bytes
  | carry => exact ⟨h.watermark, h.kicked⟩

theorem Run.sound {x₀ : Hearing} (run : Run x₀ x) (start : x₀.Sound) : x.Sound := by
  induction run with
  | start => exact start
  | next _ step ih => exact step_sound step ih

end

/-- Over a link that takes everything, a frame from the server that asks for a confirmation is
answered, by exactly one datagram, which confirms it, if and only if the session is not over.  Until
then it is applied if it is newer than the frame that was applied last, and afterwards it changes
nothing.  When a kick was applied, the session is over. -/
theorem answered_iff_connected (c : Client) (nonce : Nonce) {x : Hearing}
    (run : Run (connected c nonce) x) (clear : ∀ d, x.client.transport.refuses d = false)
    {bytes : List UInt8} {f : ControlFrame} (frame : Wire.frame? bytes = some f)
    (asks : f.confirms = true) :
    let y := x.hear x.client.server bytes
    ((∃ reply, Wire.decode reply = .ok
      (.numbered x.client.sequence (.control (.numbered f.order .confirm true))) ∧
        y.client.transport.sent = x.client.transport.sent ++ [⟨x.client.server, reply⟩]) ↔
      x.client.state ≠ .disconnected) ∧
    (x.client.state ≠ .disconnected → y =
      if x.isNews f then
        { client :=
            { x.client.answered f with controlWatermark := some f.order }.applyControl f.message
          applied := x.applied ++ [f] }
      else { x with client := x.client.answered f }) ∧
    (x.client.state = .disconnected → y = x) ∧
    ∀ g ∈ x.applied, ∀ reason, g.message = .kick reason → x.client.state = .disconnected := by
  intro y
  have h : x.Sound := run.sound (sound_connected c nonce)
  have heard (on : x.client.state ≠ .disconnected) : x.client.hears? bytes = some f :=
    Client.hears?_eq_some.2 ⟨on, frame, asks⟩
  refine ⟨⟨?_, ?_⟩, fun on => h.hear_of_hears? (heard on),
    fun off => hear_of_disconnected off _ bytes, h.kicked⟩
  · rintro ⟨reply, _, more⟩ off
    have quiet : y = x := hear_of_disconnected off _ bytes
    rw [quiet] at more
    simp at more
  · intro on
    obtain ⟨reply, encoded, more⟩ := Client.answer_of_hears? (heard on) clear
    exact ⟨reply, (Wire.decode_of_encode_eq_ok encoded).2, more⟩

/-- The frame that registers a client comes twice: the copy is answered like the first, and not
applied. -/
theorem answered_iff_connected_repeated :
    let server : Address := ⟨.v4 167772161, 7000⟩
    let start : Client := { config := {}, server }
    let welcome := datagramOf (welcomeOf 5)
    let frame : ControlFrame := .numbered 0 (.registered 5) true
    ∃ x, Run (connected start 7) x ∧ (∀ d, x.client.transport.refuses d = false) ∧
      Wire.frame? welcome = some frame ∧ frame.confirms = true ∧ x.client.state = .registered ∧
      (∃ reply, Wire.decode reply = .ok
        (.numbered x.client.sequence (.control (.numbered 0 .confirm true))) ∧
        (x.hear x.client.server welcome).client.transport.sent =
          x.client.transport.sent ++ [⟨x.client.server, reply⟩]) ∧
      x.hear x.client.server welcome = { x with client := x.client.answered frame } := by
  intro server start welcome frame
  have heard : Run (connected start 7) _ := .next .start (.hear _ server welcome)
  -- The link is set anew, so that it need not be computed what it takes after all that.
  have run := heard.next (.does _ _ (.relink _ fun _ => false))
  have decoded : Wire.frame? welcome = some frame := by decide +kernel
  obtain ⟨answered, effect, _⟩ :=
    answered_iff_connected start 7 run (fun _ => rfl) decoded (by decide)
  refine ⟨_, run, fun _ => rfl, decoded, by decide, by decide +kernel,
    answered.2 (by decide +kernel), ?_⟩
  exact (effect (by decide +kernel)).trans (if_neg (by decide +kernel))

/-- A kick is applied and answered; when it comes again, for the answer was lost, it is not
answered. -/
theorem kick_answered_once :
    let server : Address := ⟨.v4 167772161, 7000⟩
    let start : Client := { config := {}, server }
    let kick : ControlFrame := .numbered 1 (.kick "bye") true
    let bytes := datagramOf (.numbered 1 (.control kick))
    ∃ x, Run (connected start 7) x ∧ (∀ d, x.client.transport.refuses d = false) ∧
      Wire.frame? bytes = some kick ∧ kick.confirms = true ∧ x.applied.getLast? = some kick ∧
      x.client.closeReason = some "bye" ∧
      x.client.transport.sent.getLast? =
        some ⟨server, datagramOf (.numbered 2 (.control (.numbered 1 .confirm true)))⟩ ∧
      (x.hear server bytes).client.transport.sent = x.client.transport.sent := by
  intro server start kick bytes
  have registered : Run (connected start 7) _ :=
    .next .start (.hear _ server (datagramOf (welcomeOf 5)))
  have kicked := registered.next (.hear _ server bytes)
  have run := kicked.next (.does _ _ (.relink _ fun _ => false))
  exact ⟨_, run, fun _ => rfl, by decide +kernel, by decide, by decide +kernel, by decide +kernel,
    by decide +kernel, by decide +kernel⟩

end Hearing
end DatagramSession
