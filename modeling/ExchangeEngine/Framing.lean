import ExchangeEngine.ZmqServer

/-!
# Messages and Frames

ZeroMQ delivers a message of a client to the ROUTER socket as contiguous frames, the identity
of the client before the frames that it has sent. The server reads frames without looking at
where a message ends. A `FrameCursor` relates the two: it says which messages have been started,
which have not, and what is left of the one started last.

`Socket.inStep` says that a call of `receive` takes its frames from one message. While calls
are in step, what `receive` returns is the identity and the third frame of one message.

## Main results

* `recv_cases`: what one call of `recv` takes.
* `receive_cases`: what a call of `receive` takes that is in step.
-/

namespace ExchangeEngine

/-- A message of a client, as ZeroMQ delivers it: the true identity of its sender, which is
not empty, and the frames that the client has sent, of which there is at least one. -/
structure ClientMessage where
  identity : Identity
  sent : List Frame
  identity_ne : identity ≠ []
  sent_ne : sent ≠ []

/-- The frames of a message as the ROUTER socket hands them out. -/
def ClientMessage.frames (c : ClientMessage) : List Frame :=
  c.identity :: c.sent

/-- The frames of messages, one message after another. -/
def framesOf (messages : List ClientMessage) : List Frame :=
  messages.flatMap ClientMessage.frames

/-- The message whose first frame is frame number `k` of the frames of the messages. -/
def messageAt? : List ClientMessage → ℕ → Option ClientMessage
  | [], _ => none
  | c :: messages, k =>
      if k = 0 then some c
      else if k < c.frames.length then none
      else messageAt? messages (k - c.frames.length)

/-! ### Frames of messages -/

section Frames

variable {c : ClientMessage} {messages rest : List ClientMessage}

theorem ClientMessage.length_frames (c : ClientMessage) : c.frames.length = c.sent.length + 1 :=
  rfl

theorem framesOf_append (messages rest : List ClientMessage) :
    framesOf (messages ++ rest) = framesOf messages ++ framesOf rest :=
  List.flatMap_append

theorem framesOf_cons (c : ClientMessage) (messages : List ClientMessage) :
    framesOf (c :: messages) = c.identity :: (c.sent ++ framesOf messages) :=
  rfl

theorem messageAt?_append (messages rest : List ClientMessage) (k : ℕ) :
    messageAt? (messages ++ rest) ((framesOf messages).length + k) = messageAt? rest k := by
  induction messages with
  | nil => simp [framesOf]
  | cons c messages ih =>
      have hlength : (framesOf (c :: messages)).length =
          c.frames.length + (framesOf messages).length := by
        rw [framesOf_cons, List.length_cons, List.length_append, c.length_frames]
        omega
      have hsub : (framesOf (c :: messages)).length + k - c.frames.length =
          (framesOf messages).length + k := by omega
      have hframes := c.length_frames
      rw [List.cons_append, messageAt?, if_neg (by omega), if_neg (by omega), hsub, ih]

/-- No message starts inside another one. -/
theorem messageAt?_inside {k : ℕ} (hpos : 0 < k) (hlt : k < c.frames.length) :
    messageAt? (messages ++ c :: rest) ((framesOf messages).length + k) = none := by
  rw [messageAt?_append, messageAt?, if_neg (by omega), if_pos hlt]

theorem messageAt?_start :
    messageAt? (messages ++ c :: rest) (framesOf messages).length = some c := by
  have hstart := messageAt?_append messages (c :: rest) 0
  rw [messageAt?, if_pos rfl] at hstart
  exact hstart

end Frames

/-! ### The messages delivered to a socket -/

section Delivered

variable (schedule : ℕ → List ClientMessage)

/-- The messages delivered before the end of the first `calls` calls of `recv`, where
`schedule k` are those delivered just before the end of call number `k`. -/
def delivered (calls : ℕ) : List ClientMessage :=
  (List.range calls).flatMap schedule

theorem delivered_succ (calls : ℕ) :
    delivered schedule (calls + 1) = delivered schedule calls ++ schedule calls := by
  rw [delivered, List.range_succ, List.flatMap_append, List.flatMap_singleton]
  rfl

theorem delivered_prefix {a b : ℕ} (h : a ≤ b) :
    delivered schedule a <+: delivered schedule b := by
  induction b, h using Nat.le_induction with
  | base => exact List.prefix_rfl
  | succ b _ ih =>
      rw [delivered_succ]
      exact ih.trans (List.prefix_append _ _)

/-- The number of frames that have been delivered to a socket. -/
def Socket.framesDelivered (s : Socket) : ℕ :=
  (framesOf (delivered schedule s.recvCalls)).length

/-- The number of frames that have been read from a socket. -/
def Socket.framesRead (s : Socket) : ℕ :=
  s.framesDelivered schedule - s.incoming.length

/-- Whether a socket has three frames for a call of `receive`, the first of them not empty. -/
def Socket.hasThree (s : Socket) : Bool :=
  match s.recv with
  | (some (_ :: _), s₁) =>
      match s₁.recv with
      | (some _, s₂) => s₂.recv.1.isSome
      | (none, _) => false
  | _ => false

/-- **Whether a call of `receive` is in step** with the messages: if there are three frames for
it, then the first of them is the first frame of a message of at least three frames. -/
def Socket.inStep (s : Socket) : Bool :=
  !s.hasThree ||
    match messageAt? (delivered schedule (s.recvCalls + 3)) (s.framesRead schedule) with
    | none => false
    | some c => 2 ≤ c.sent.length

/-- **A cursor in the messages delivered to a socket**: `done` have been started, of the last
of them `left` has not been read, and `todo` have not been started. -/
structure FrameCursor (s : Socket) (done todo : List ClientMessage) (left : List Frame) : Prop where
  arrivals : s.arrivals = fun k => framesOf (schedule k)
  delivered : delivered schedule s.recvCalls = done ++ todo
  incoming : s.incoming = left ++ framesOf todo
  left : left = [] ∨ ∃ before c, done = before ++ [c] ∧ left <:+ c.sent

end Delivered

section Cursor

variable {schedule : ℕ → List ClientMessage} {s : Socket} {done todo : List ClientMessage}
  {left : List Frame}

theorem FrameCursor.framesRead (h : FrameCursor schedule s done todo left) :
    s.framesRead schedule = (framesOf done).length - left.length := by
  rw [Socket.framesRead, Socket.framesDelivered, h.delivered, h.incoming, framesOf_append,
    List.length_append, List.length_append]
  omega

theorem Socket.recv_of_cons (s : Socket) {frame : Frame} {frames : List Frame}
    (h : s.incoming ++ s.arrivals s.recvCalls = frame :: frames) :
    s.recv = (some frame, { s with incoming := frames, recvCalls := s.recvCalls + 1 }) := by
  rw [recv, h]

theorem Socket.recv_of_nil (s : Socket) (h : s.incoming ++ s.arrivals s.recvCalls = []) :
    s.recv = (none, { s with incoming := [], recvCalls := s.recvCalls + 1 }) := by
  rw [recv, h]

theorem Socket.recvCalls_of_recv {s s' : Socket} {frame : Option Frame}
    (h : s.recv = (frame, s')) : s'.recvCalls = s.recvCalls + 1 := by
  rw [recv] at h
  split at h <;> rw [← (Prod.mk.inj h).2]

/-- What is delivered when a call ends begins with what was when it began. -/
theorem FrameCursor.delivered_later (h : FrameCursor schedule s done todo left) {s' : Socket}
    (hle : s.recvCalls ≤ s'.recvCalls) :
    ∃ extra, ExchangeEngine.delivered schedule s'.recvCalls = done ++ todo ++ extra := by
  obtain ⟨extra, hextra⟩ := delivered_prefix schedule hle
  exact ⟨extra, by rw [← hextra, h.delivered]⟩

/-- **What one call of `recv` takes**: the next frame of the message read last, or the first
frame of the next message, or nothing when all messages have been read. -/
theorem recv_cases (h : FrameCursor schedule s done todo left) :
    (∃ frame left' s', left = frame :: left' ∧ s.recv = (some frame, s') ∧
      FrameCursor schedule s' done (todo ++ schedule s.recvCalls) left') ∨
    (∃ c todo' s', left = [] ∧ todo ++ schedule s.recvCalls = c :: todo' ∧
      s.recv = (some c.identity, s') ∧ FrameCursor schedule s' (done ++ [c]) todo' c.sent) ∨
    (∃ s', left = [] ∧ s.recv = (none, s') ∧ FrameCursor schedule s' done [] []) := by
  have hqueue : s.incoming ++ s.arrivals s.recvCalls =
      left ++ framesOf (todo ++ schedule s.recvCalls) := by
    rw [h.incoming, h.arrivals, framesOf_append, List.append_assoc]
  have hnext : delivered schedule (s.recvCalls + 1) =
      done ++ (todo ++ schedule s.recvCalls) := by
    rw [delivered_succ, h.delivered, List.append_assoc]
  cases left with
  | cons frame left =>
      refine Or.inl ⟨frame, left, _, rfl, s.recv_of_cons hqueue, h.arrivals, hnext, rfl, ?_⟩
      rcases h.left with hnil | ⟨before, c, hdone, hsuffix⟩
      · cases hnil
      · exact Or.inr ⟨before, c, hdone, (List.suffix_cons frame left).trans hsuffix⟩
  | nil =>
      refine Or.inr ?_
      cases htodo : todo ++ schedule s.recvCalls with
      | cons c todo' =>
          rw [htodo, framesOf_cons] at hqueue
          refine Or.inl ⟨c, todo', _, rfl, rfl, s.recv_of_cons hqueue, ?_⟩
          refine ⟨h.arrivals, ?_, rfl, Or.inr ⟨done, c, rfl, List.suffix_rfl⟩⟩
          rw [hnext, htodo, List.append_assoc]
          rfl
      | nil =>
          rw [htodo] at hqueue
          exact Or.inr ⟨_, rfl, s.recv_of_nil hqueue,
            h.arrivals, by rw [hnext, htodo], rfl, Or.inl rfl⟩

/-- Frames are left of a message only if it has been started and is not finished. -/
theorem FrameCursor.inside (h : FrameCursor schedule s done todo left) (hleft : left ≠ [])
    (extra : List ClientMessage) :
    messageAt? (done ++ extra) (s.framesRead schedule) = none := by
  rcases h.left with hnil | ⟨before, c, rfl, hsuffix⟩
  · exact absurd hnil hleft
  · have hpos := List.length_pos_iff.mpr hleft
    have hle := hsuffix.length_le
    have hframes := c.length_frames
    have hread : s.framesRead schedule =
        (framesOf before).length + (c.frames.length - left.length) := by
      rw [h.framesRead, framesOf_append, List.length_append, framesOf_cons, List.length_cons,
        List.length_append]
      simp only [framesOf, List.flatMap_nil, List.length_nil]
      omega
    rw [hread, List.append_assoc]
    exact messageAt?_inside (by omega) (by omega)

/-- A message that `recv` starts begins at the next frame to be read. -/
theorem FrameCursor.start (h : FrameCursor schedule s done todo []) {c : ClientMessage}
    {todo' : List ClientMessage} {left' : List Frame} {s₁ s' : Socket}
    (h₁ : FrameCursor schedule s₁ (done ++ [c]) todo' left') (hle : s₁.recvCalls ≤ s'.recvCalls) :
    messageAt? (ExchangeEngine.delivered schedule s'.recvCalls) (s.framesRead schedule) =
      some c := by
  obtain ⟨extra, hextra⟩ := h₁.delivered_later hle
  rw [hextra, h.framesRead, List.length_nil, Nat.sub_zero, List.append_assoc, List.append_assoc,
    List.singleton_append, messageAt?_start]

/-- What a call of `receive` returns that gets three frames. -/
theorem Socket.receive_of_recv {s s₁ s₂ s₃ : Socket} {identity delimiter msg : Frame}
    (hne : identity ≠ []) (h₁ : s.recv = (some identity, s₁))
    (h₂ : s₁.recv = (some delimiter, s₂)) (h₃ : s₂.recv = (some msg, s₃)) :
    s.receive = (some (identity, msg), s₃) := by
  have hlength : ¬ identity.length = 0 := by simpa using hne
  simp only [receive, h₁, h₂, h₃, if_neg hlength]

theorem Socket.hasThree_of_recv {s s₁ s₂ s₃ : Socket} {identity delimiter msg : Frame}
    (hne : identity ≠ []) (h₁ : s.recv = (some identity, s₁))
    (h₂ : s₁.recv = (some delimiter, s₂)) (h₃ : s₂.recv = (some msg, s₃)) :
    s.hasThree = true := by
  obtain ⟨b, bs, rfl⟩ := List.exists_cons_of_ne_nil hne
  simp only [hasThree, h₁, h₂, h₃, Option.isSome_some]

/-- A call that gets three frames and is in step starts with the first frame of a message of at
least three frames. -/
theorem Socket.inStep_of_recv {s s₁ s₂ s₃ : Socket} {identity delimiter msg : Frame}
    (hstep : s.inStep schedule = true) (hne : identity ≠ []) (h₁ : s.recv = (some identity, s₁))
    (h₂ : s₁.recv = (some delimiter, s₂)) (h₃ : s₂.recv = (some msg, s₃)) :
    s₃.recvCalls = s.recvCalls + 3 ∧
      ∃ c, messageAt? (delivered schedule s₃.recvCalls) (s.framesRead schedule) = some c ∧
        2 ≤ c.sent.length := by
  have hcalls : s₃.recvCalls = s.recvCalls + 3 := by
    rw [recvCalls_of_recv h₃, recvCalls_of_recv h₂, recvCalls_of_recv h₁]
  rw [inStep, hasThree_of_recv hne h₁ h₂ h₃, Bool.not_true, Bool.false_or] at hstep
  refine ⟨hcalls, ?_⟩
  rw [hcalls]
  split at hstep
  · cases hstep
  · rename_i c hc
    exact ⟨c, hc, of_decide_eq_true hstep⟩

/-- **A call in step that starts with what is left of a message** returns nothing. -/
theorem receive_of_left (h : FrameCursor schedule s done todo left) (hleft : left ≠ [])
    (hstep : s.inStep schedule = true) :
    ∃ s' todo' left', s.receive = (none, s') ∧ FrameCursor schedule s' done todo' left' := by
  rcases recv_cases h with ⟨frame, left₁, s₁, -, hrecv₁, h₁⟩ | ⟨c, todo', s', hnil, -⟩ |
    ⟨s', hnil, -⟩
  · by_cases hempty : frame = []
    · refine ⟨s₁, _, left₁, ?_, h₁⟩
      simp only [Socket.receive, hrecv₁, hempty, List.length_nil, if_pos]
    have hlength : ¬ frame.length = 0 := by simpa using hempty
    -- were there three frames, the call would start inside a message
    have hthird : ∀ {s₂ s₃ : Socket} {delimiter msg : Frame},
        s₁.recv = (some delimiter, s₂) → s₂.recv = (some msg, s₃) → False := by
      intro s₂ s₃ delimiter msg hrecv₂ hrecv₃
      obtain ⟨hcalls, c, hc, -⟩ := Socket.inStep_of_recv hstep hempty hrecv₁ hrecv₂ hrecv₃
      obtain ⟨extra, hextra⟩ := h.delivered_later (show s.recvCalls ≤ s₃.recvCalls by omega)
      rw [hextra, List.append_assoc, h.inside hleft] at hc
      cases hc
    rcases recv_cases h₁ with ⟨delimiter, left₂, s₂, -, hrecv₂, h₂⟩ |
      ⟨c, todo₂, s₂, -, -, hrecv₂, h₂⟩ | ⟨s₂, -, hrecv₂, h₂⟩
    · rcases recv_cases h₂ with ⟨msg, left₃, s₃, -, hrecv₃, h₃⟩ |
        ⟨c, todo₃, s₃, -, -, hrecv₃, h₃⟩ | ⟨s₃, -, hrecv₃, h₃⟩
      · exact (hthird hrecv₂ hrecv₃).elim
      · exact (hthird hrecv₂ hrecv₃).elim
      · refine ⟨s₃, [], [], ?_, h₃⟩
        simp only [Socket.receive, hrecv₁, hrecv₂, hrecv₃, if_neg hlength]
    · -- the second frame starts a message, which has a third
      rcases recv_cases h₂ with ⟨msg, left₃, s₃, -, hrecv₃, -⟩ |
        ⟨c', todo₃, s₃, hnil, -⟩ | ⟨s₃, hnil, -⟩
      · exact (hthird hrecv₂ hrecv₃).elim
      · exact absurd hnil c.sent_ne
      · exact absurd hnil c.sent_ne
    · refine ⟨s₂, [], [], ?_, h₂⟩
      simp only [Socket.receive, hrecv₁, hrecv₂, if_neg hlength]
  · exact absurd hnil hleft
  · exact absurd hnil hleft

/-- **What a call of `receive` takes that is in step**: nothing from a message of three frames
or more, or the identity and the third frame of such a message. -/
theorem receive_cases (h : FrameCursor schedule s done todo left) (hstep : s.inStep schedule = true) :
    (∃ s' started todo' left', s.receive = (none, s') ∧
      FrameCursor schedule s' (done ++ started) todo' left' ∧ ∀ c ∈ started, c.sent.length < 2) ∨
    (∃ s' c todo' delimiter msg left', s.receive = (some (c.identity, msg), s') ∧
      FrameCursor schedule s' (done ++ [c]) todo' left' ∧ c.sent = delimiter :: msg :: left') := by
  by_cases hleft : left = []
  · subst hleft
    rcases recv_cases h with ⟨frame, left₁, s₁, hcons, -⟩ |
      ⟨c, todo₁, s₁, -, -, hrecv₁, h₁⟩ | ⟨s₁, -, hrecv₁, h₁⟩
    · cases hcons
    · have hlength : ¬ c.identity.length = 0 := by simpa using c.identity_ne
      rcases recv_cases h₁ with ⟨delimiter, left₂, s₂, hsent, hrecv₂, h₂⟩ |
        ⟨c', todo₂, s₂, hnil, -⟩ | ⟨s₂, hnil, -⟩
      · rcases recv_cases h₂ with ⟨msg, left₃, s₃, hsent₂, hrecv₃, h₃⟩ |
          ⟨c', todo₃, s₃, hnil, -, hrecv₃, h₃⟩ | ⟨s₃, hnil, hrecv₃, h₃⟩
        · rw [hsent₂] at hsent
          exact Or.inr ⟨s₃, c, _, delimiter, msg, left₃,
            Socket.receive_of_recv c.identity_ne hrecv₁ hrecv₂ hrecv₃, h₃, hsent⟩
        · -- the message has two frames, and the third is of another
          obtain ⟨hcalls, c₀, hc₀, htwo⟩ :=
            Socket.inStep_of_recv hstep c.identity_ne hrecv₁ hrecv₂ hrecv₃
          have hcalls₁ := Socket.recvCalls_of_recv hrecv₁
          rw [h.start h₁ (by omega)] at hc₀
          obtain rfl := Option.some.inj hc₀
          rw [hsent, hnil] at htwo
          exact absurd htwo (by simp)
        · refine Or.inl ⟨s₃, [c], [], [], ?_, h₃, fun c' hc' => ?_⟩
          · simp only [Socket.receive, hrecv₁, hrecv₂, hrecv₃, if_neg hlength]
          · rw [List.mem_singleton.mp hc', hsent, hnil]
            exact Nat.one_lt_two
      · exact absurd hnil c.sent_ne
      · exact absurd hnil c.sent_ne
    · refine Or.inl ⟨s₁, [], [], [], ?_, by rwa [List.append_nil], fun c' hc' => ?_⟩
      · simp only [Socket.receive, hrecv₁]
      · cases hc'
  · obtain ⟨s', todo', left', hreceive, h'⟩ := receive_of_left h hleft hstep
    refine Or.inl ⟨s', [], todo', left', hreceive, by rwa [List.append_nil], fun c' hc' => ?_⟩
    cases hc'

/-- While all messages have three frames, every call is in step and ends between messages. -/
theorem inStep_of_three (h : FrameCursor schedule s done todo [])
    (hthree : ∀ k, ∀ c ∈ schedule k, c.sent.length = 2) :
    s.inStep schedule = true ∧
      ∃ done' todo', FrameCursor schedule s.receive.2 done' todo' [] := by
  rcases recv_cases h with ⟨frame, left₁, s₁, hcons, -⟩ |
    ⟨c, todo₁, s₁, -, htodo, hrecv₁, h₁⟩ | ⟨s₁, -, hrecv₁, h₁⟩
  · cases hcons
  · have hlength : c.sent.length = 2 := by
      have hmem : c ∈ delivered schedule (s.recvCalls + 1) := by
        rw [delivered_succ, h.delivered, List.append_assoc, htodo]
        exact List.mem_append_right _ (List.mem_cons_self ..)
      obtain ⟨k, -, hk⟩ := List.mem_flatMap.mp hmem
      exact hthree k c hk
    obtain ⟨delimiter, msg, hsent⟩ := List.length_eq_two.mp hlength
    rw [hsent] at h₁
    rcases recv_cases h₁ with ⟨delimiter', left₂, s₂, hcons₂, hrecv₂, h₂⟩ |
      ⟨c', todo₂, s₂, hnil, -⟩ | ⟨s₂, hnil, -⟩
    · obtain ⟨rfl, rfl⟩ := List.cons.inj hcons₂
      rcases recv_cases h₂ with ⟨msg', left₃, s₃, hcons₃, hrecv₃, h₃⟩ |
        ⟨c', todo₃, s₃, hnil, -⟩ | ⟨s₃, hnil, -⟩
      · obtain ⟨rfl, rfl⟩ := List.cons.inj hcons₃
        have hreceive := Socket.receive_of_recv c.identity_ne hrecv₁ hrecv₂ hrecv₃
        have hcalls : s₃.recvCalls = s.recvCalls + 3 := by
          rw [Socket.recvCalls_of_recv hrecv₃, Socket.recvCalls_of_recv hrecv₂,
            Socket.recvCalls_of_recv hrecv₁]
        have hle : s₁.recvCalls ≤ s₃.recvCalls := by
          rw [hcalls, Socket.recvCalls_of_recv hrecv₁]
          omega
        have hstart := h.start h₁ hle
        rw [hcalls] at hstart
        refine ⟨?_, done ++ [c], _, by rw [hreceive]; exact h₃⟩
        simp only [Socket.inStep, hstart, hlength, Nat.le_refl, decide_true, Bool.or_true]
      · cases hnil
      · cases hnil
    · cases hnil
    · cases hnil
  · have hreceive : s.receive = (none, s₁) := by
      simp only [Socket.receive, hrecv₁]
    refine ⟨?_, done, [], by rwa [hreceive]⟩
    simp only [Socket.inStep, Socket.hasThree, hrecv₁, Bool.not_false, Bool.true_or]

end Cursor

/-! ### Frames are read -/

section Account

variable {schedule : ℕ → List ClientMessage} {s : Socket}

/-- What every call of `recv` keeps, `receive` keeps, and it makes at least one. -/
theorem Socket.receive_of_invariant {p : Socket → Prop} (hrecv : ∀ s, p s → p s.recv.2)
    (h : p s.recv.2) : p s.receive.2 := by
  rw [receive]
  split
  · rename_i s₁ hrecv₁
    rwa [hrecv₁] at h
  · rename_i identity s₁ hrecv₁
    rw [hrecv₁] at h
    split
    · exact h
    · have h₂ := hrecv s₁ h
      split
      · rename_i s₂ hrecv₂
        rwa [hrecv₂] at h₂
      · rename_i delimiter s₂ hrecv₂
        rw [hrecv₂] at h₂
        have h₃ := hrecv s₂ h₂
        split
        · rename_i s₃ hrecv₃
          rwa [hrecv₃] at h₃
        · rename_i msg s₃ hrecv₃
          rwa [hrecv₃] at h₃

theorem Socket.recvCalls_recv (s : Socket) : s.recv.2.recvCalls = s.recvCalls + 1 :=
  recvCalls_of_recv rfl

theorem Socket.recvCalls_le_receive (s : Socket) : s.recvCalls ≤ s.receive.2.recvCalls := by
  refine receive_of_invariant (p := fun s' => s.recvCalls ≤ s'.recvCalls) (fun s' h => ?_) ?_
  · rw [recvCalls_recv]
    exact Nat.le_succ_of_le h
  · rw [recvCalls_recv]
    exact Nat.le_succ _

/-- **The account of frames**: those read and those unread are those delivered. -/
structure Socket.Accounts (schedule : ℕ → List ClientMessage) (s : Socket) : Prop where
  arrivals : s.arrivals = fun k => framesOf (schedule k)
  balance : s.framesRead schedule + s.incoming.length = s.framesDelivered schedule

/-- A call of `recv` reads a frame, unless all frames delivered have been read. -/
theorem Socket.accounts_recv (h : s.Accounts schedule) :
    s.recv.2.Accounts schedule ∧
      s.framesDelivered schedule ≤ s.recv.2.framesDelivered schedule ∧
      s.framesRead schedule ≤ s.recv.2.framesRead schedule ∧
      (s.recv.2.framesRead schedule = s.framesRead schedule + 1 ∨ s.recv.2.incoming = []) := by
  have hbalance := h.balance
  have hnext : (framesOf (delivered schedule (s.recvCalls + 1))).length =
      (framesOf (delivered schedule s.recvCalls)).length +
        (framesOf (schedule s.recvCalls)).length := by
    rw [delivered_succ, framesOf_append, List.length_append]
  have hqueue : (s.incoming ++ s.arrivals s.recvCalls).length =
      s.incoming.length + (framesOf (schedule s.recvCalls)).length := by
    rw [List.length_append, h.arrivals]
  cases hframes : s.incoming ++ s.arrivals s.recvCalls with
  | nil =>
      rw [hframes, List.length_nil] at hqueue
      rw [s.recv_of_nil hframes]
      simp only [framesRead, framesDelivered] at hbalance
      refine ⟨⟨h.arrivals, ?_⟩, ?_, ?_, Or.inr rfl⟩ <;>
        simp only [framesRead, framesDelivered, List.length_nil] <;> omega
  | cons frame frames =>
      rw [hframes, List.length_cons] at hqueue
      rw [s.recv_of_cons hframes]
      simp only [framesRead, framesDelivered] at hbalance
      refine ⟨⟨h.arrivals, ?_⟩, ?_, ?_, Or.inl ?_⟩ <;>
        simp only [framesRead, framesDelivered] <;> omega

/-- A call of `receive` reads a frame, unless as many have been read as were delivered before
it, of which there are at least `target`. -/
theorem Socket.accounts_receive {target : ℕ} (h : s.Accounts schedule)
    (htarget : target ≤ s.framesDelivered schedule) :
    s.receive.2.Accounts schedule ∧ target ≤ s.receive.2.framesDelivered schedule ∧
      (s.framesRead schedule + 1 ≤ s.receive.2.framesRead schedule ∨
        target ≤ s.receive.2.framesRead schedule) := by
  refine receive_of_invariant (p := fun s' => s'.Accounts schedule ∧
    target ≤ s'.framesDelivered schedule ∧
    (s.framesRead schedule + 1 ≤ s'.framesRead schedule ∨ target ≤ s'.framesRead schedule))
    ?_ ?_
  · rintro s' ⟨h', htarget', hread⟩
    obtain ⟨hnext, hdelivered, hmono, -⟩ := accounts_recv h'
    refine ⟨hnext, by omega, ?_⟩
    omega
  · obtain ⟨hnext, hdelivered, -, hone | hnone⟩ := accounts_recv h
    · exact ⟨hnext, by omega, Or.inl (by omega)⟩
    · have hbalance := hnext.balance
      rw [hnone, List.length_nil] at hbalance
      exact ⟨hnext, by omega, Or.inr (by omega)⟩

end Account

end ExchangeEngine
