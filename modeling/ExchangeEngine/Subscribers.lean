import ExchangeEngine.Runs
import ExchangeEngine.UdpMulticastReceiver

/-!
# What a Subscriber Knows

The feed from end to end: what the engine pushes in a run, the feed handler sends as datagrams, and
a client shows. The socket may refuse a datagram or send a part of it; the handler does not try
again, so that such a message is lost.

A tick update carries the best prices and the last trade as a whole, and whatever the engine pushes
for an input ends with one. So a subscriber needs no earlier message to be up to date.

## Main results

* `FeedHandler.feed_lossy`: a client shows exactly the messages that were sent whole, in their
  order, and the counters of the handler count them.
* `subscriber_up_to_date`: in every state of every run, a client that got the last datagram knows
  the best prices and the last trade, whatever else was lost.
-/

namespace ExchangeEngine

/-! ### What the engine pushes -/

/-- The best prices and the last trade. -/
structure TopOfBook where
  lastPrice : Price
  lastQty : Quantity
  bidPrice : Price
  bidQty : Quantity
  askPrice : Price
  askQty : Quantity
  deriving DecidableEq, Repr

/-- What a client knows after a tick update. -/
def TickUpdate.topOfBook (t : TickUpdate) : TopOfBook where
  lastPrice := t.lastPrice
  lastQty := t.lastQty
  bidPrice := t.bidPrice
  bidQty := t.bidQty
  askPrice := t.askPrice
  askQty := t.askQty

/-- The top of the engine's book. -/
def MatchingEngine.topOfBook (e : MatchingEngine) : TopOfBook where
  lastPrice := e.lastTradePrice
  lastQty := e.lastTradeQty
  bidPrice := e.orderbook.getBestBidAsk.bidPrice
  bidQty := e.orderbook.getBestBidAsk.bidQty
  askPrice := e.orderbook.getBestBidAsk.askPrice
  askQty := e.orderbook.getBestBidAsk.askQty

/-- The struct that a market data message is, if its symbol fills the array. -/
def MarketDataMessage.pack? : MarketDataMessage → Option MarketData
  | .tick update =>
      if h : update.symbol.length = SYMBOL_LENGTH then some (.tick ⟨update, h⟩) else none
  | .trade update =>
      if h : update.symbol.length = SYMBOL_LENGTH then some (.trade ⟨update, h⟩) else none

/-- The symbol of a struct. -/
def MarketData.symbol : MarketData → List UInt8
  | .tick update => update.val.symbol
  | .trade update => update.val.symbol
  | .snapshot book => book.symbol.toList

/-- **A message as the engine builds it**: a struct with the header of its constructor and the
engine's symbol. -/
def MarketDataMessage.BuiltWith (symbol : List UInt8) (msg : MarketDataMessage) : Prop :=
  ∃ data, msg.pack? = some data ∧ data.Constructed ∧ data.symbol = copySymbol symbol

namespace MatchingEngine

variable {e e' e'' : MatchingEngine}

theorem builtWith_tick {symbol : List UInt8} {t : TickUpdate}
    (hsymbol : t.symbol = copySymbol symbol) (htype : t.header.type = .tickUpdate)
    (hlength : t.header.length = MessageType.tickUpdate.size) :
    (MarketDataMessage.tick t).BuiltWith symbol := by
  have hfull : t.symbol.length = SYMBOL_LENGTH := by
    rw [hsymbol]
    exact length_copySymbol symbol
  exact ⟨.tick ⟨t, hfull⟩, dif_pos hfull, ⟨htype, hlength⟩, hsymbol⟩

theorem builtWith_trade {symbol : List UInt8} {t : TradeUpdate}
    (hsymbol : t.symbol = copySymbol symbol) (htype : t.header.type = .tradeUpdate)
    (hlength : t.header.length = MessageType.tradeUpdate.size) :
    (MarketDataMessage.trade t).BuiltWith symbol := by
  have hfull : t.symbol.length = SYMBOL_LENGTH := by
    rw [hsymbol]
    exact length_copySymbol symbol
  exact ⟨.trade ⟨t, hfull⟩, dif_pos hfull, ⟨htype, hlength⟩, hsymbol⟩

/-- **From `e` to `e'` the engine speaks**: it keeps its symbol and adds messages that it built to
the feed. -/
structure Speaks (e e' : MatchingEngine) : Prop where
  symbol : e'.symbol = e.symbol
  feed : ∃ msgs, e'.feedQueue = e.feedQueue ++ msgs ∧ ∀ msg ∈ msgs, msg.BuiltWith e.symbol

/-- A step that touches neither symbol nor feed. -/
theorem Speaks.of_eq (hsymbol : e'.symbol = e.symbol) (hfeed : e'.feedQueue = e.feedQueue) :
    Speaks e e' :=
  ⟨hsymbol, [], hfeed.trans (List.append_nil _).symm, fun msg hmem => by cases hmem⟩

theorem Speaks.trans (h : Speaks e e') (h' : Speaks e' e'') : Speaks e e'' := by
  obtain ⟨hsymbol, msgs, hfeed, hbuilt⟩ := h
  obtain ⟨hsymbol', msgs', hfeed', hbuilt'⟩ := h'
  refine ⟨hsymbol'.trans hsymbol, msgs ++ msgs', ?_, fun msg hmem => ?_⟩
  · rw [hfeed', hfeed, List.append_assoc]
  · rcases List.mem_append.mp hmem with hmem | hmem
    · exact hbuilt msg hmem
    · exact hsymbol ▸ hbuilt' msg hmem

theorem Speaks.publishTickUpdate (h : Speaks e e') : Speaks e e'.publishTickUpdate := by
  refine h.trans ⟨rfl, _, rfl, fun msg hmem => ?_⟩
  obtain rfl := List.mem_singleton.mp hmem
  exact builtWith_tick rfl rfl rfl

theorem Speaks.publishTradeUpdate (h : Speaks e e') (trade : Trade) (side : BuySell) :
    Speaks e (e'.publishTradeUpdate trade side) := by
  refine h.trans ⟨rfl, _, rfl, fun msg hmem => ?_⟩
  obtain rfl := List.mem_singleton.mp hmem
  exact builtWith_trade rfl rfl rfl

theorem speaks_newOrderTrade (sessionId : SessionId) (order : OrderPointer) (orderId : OrderId)
    (side : BuySell) (e : MatchingEngine) (trade : Trade) :
    Speaks e (newOrderTrade sessionId order orderId side e trade) := by
  have hrecord : Speaks e (e.recordTrade trade) := .of_eq rfl rfl
  have hupdate := hrecord.publishTradeUpdate trade side
  rw [newOrderTrade]
  split
  · exact hupdate.trans (.of_eq rfl rfl)
  · exact hupdate.trans (.of_eq rfl rfl)

theorem speaks_foldl {turn : MatchingEngine → Trade → MatchingEngine}
    (hturn : ∀ e trade, Speaks e (turn e trade)) (trades : List Trade) (e : MatchingEngine) :
    Speaks e (trades.foldl turn e) := by
  induction trades generalizing e with
  | nil => exact .of_eq rfl rfl
  | cons trade trades ih => exact (hturn e trade).trans (ih _)

/-- An accepted order publishes its trades and then the best prices. -/
theorem speaks_acceptNewOrder (e : MatchingEngine) (sessionId : SessionId)
    (request : NewOrderRequest) (side : BuySell) (orderType : OrderType) :
    Speaks e (e.acceptNewOrder sessionId request side orderType) := by
  have henter : Speaks e (e.enterOrder sessionId request side orderType) := .of_eq rfl rfl
  have hloop := henter.trans (speaks_foldl
    (speaks_newOrderTrade sessionId e.orderbook.heap.next e.nextOrderId side)
    (e.enterOrder sessionId request side orderType).orderbook.trades _)
  rw [acceptNewOrder, finishNewOrder]
  refine Speaks.publishTickUpdate ?_
  split
  · exact hloop.trans (.of_eq rfl rfl)
  · exact hloop.trans (.of_eq rfl rfl)

theorem speaks_acceptModifyOrder (e : MatchingEngine) (sessionId : SessionId)
    (request : ModifyOrderRequest) : Speaks e (e.acceptModifyOrder sessionId request) := by
  have hturn : ∀ (e : MatchingEngine) (trade : Trade),
      Speaks e (modifyOrderTrade request.orderId e trade) := by
    intro e trade
    have hrecord : Speaks e (e.recordTrade trade) := .of_eq rfl rfl
    exact hrecord.publishTradeUpdate trade _
  have hmodify : ∀ orderbook, Speaks e { e with orderbook } := fun _ => .of_eq rfl rfl
  rw [acceptModifyOrder]
  refine Speaks.publishTickUpdate ?_
  exact ((hmodify _).trans (speaks_foldl hturn _ _)).trans (.of_eq rfl rfl)

theorem symbol_foldl_cancelForSession (orderIds : List OrderId) (e : MatchingEngine) :
    (orderIds.foldl cancelForSession e).symbol = e.symbol ∧
      (orderIds.foldl cancelForSession e).feedQueue = e.feedQueue := by
  induction orderIds generalizing e with
  | nil => exact ⟨rfl, rfl⟩
  | cons i orderIds ih => exact ih (e.cancelForSession i)

/-- **Everything that an input makes the engine push** is built by the engine. -/
theorem speaks_apply (e : MatchingEngine) (input : Input) : Speaks e (e.apply input) := by
  cases input with
  | message msg =>
      change Speaks e (e.processInboundMessage msg)
      have hcount : Speaks e e.countOrder := .of_eq rfl rfl
      cases e.handled msg with
      | newRejected request reason _ _ _ _ result => exact result ▸ .of_eq rfl rfl
      | newAccepted request side orderType _ _ _ _ result =>
          exact result ▸ hcount.trans (speaks_acceptNewOrder ..)
      | cancelRejected request _ _ _ _ result => exact result ▸ .of_eq rfl rfl
      | cancelled request owner _ _ _ _ result =>
          exact result ▸ Speaks.publishTickUpdate (.of_eq rfl rfl)
      | modifyRejected request reason _ _ _ _ result => exact result ▸ .of_eq rfl rfl
      | modified request _ _ _ _ result => exact result ▸ speaks_acceptModifyOrder ..
  | cancelSession sessionId orderIds =>
      obtain ⟨hsymbol, hfeed⟩ := symbol_foldl_cancelForSession orderIds e
      change Speaks e (e.cancelSessionOrders sessionId orderIds)
      rw [cancelSessionOrders]
      split
      · exact .of_eq hsymbol hfeed
      · exact Speaks.publishTickUpdate (.of_eq hsymbol hfeed)

/-- The last message of the feed is a tick update with the top of the book. -/
def UpToDate (e : MatchingEngine) : Prop :=
  ∃ update, e.feedQueue.getLast? = some (.tick update) ∧ update.topOfBook = e.topOfBook

theorem upToDate_publishTickUpdate (e : MatchingEngine) : e.publishTickUpdate.UpToDate :=
  ⟨_, List.getLast?_concat .., rfl⟩

/-- **An input ends with a tick update, or changes neither the feed nor what it shows.** -/
theorem apply_upToDate (e : MatchingEngine) (input : Input) :
    (e.apply input).UpToDate ∨
      (e.apply input).feedQueue = e.feedQueue ∧ (e.apply input).topOfBook = e.topOfBook := by
  cases input with
  | message msg =>
      change (e.processInboundMessage msg).UpToDate ∨
        (e.processInboundMessage msg).feedQueue = e.feedQueue ∧
          (e.processInboundMessage msg).topOfBook = e.topOfBook
      cases e.handled msg with
      | newRejected request reason _ _ _ _ result => exact Or.inr (result ▸ ⟨rfl, rfl⟩)
      | newAccepted request side orderType _ _ _ _ result =>
          exact Or.inl (result ▸ upToDate_publishTickUpdate _)
      | cancelRejected request _ _ _ _ result => exact Or.inr (result ▸ ⟨rfl, rfl⟩)
      | cancelled request owner _ _ _ _ result =>
          exact Or.inl (result ▸ upToDate_publishTickUpdate _)
      | modifyRejected request reason _ _ _ _ result => exact Or.inr (result ▸ ⟨rfl, rfl⟩)
      | modified request _ _ _ _ result =>
          exact Or.inl (result ▸ upToDate_publishTickUpdate _)
  | cancelSession sessionId orderIds =>
      rw [apply, cancelSessionOrders]
      split
      · rename_i hnil
        rw [hnil]
        exact Or.inr ⟨rfl, rfl⟩
      · exact Or.inl (upToDate_publishTickUpdate _)

end MatchingEngine

/-! ### Runs -/

section Run

variable (symbol : List UInt8) (clock : ℕ → Timestamp)

/-- Everything in the feed of a run is a struct with the engine's symbol. -/
theorem builtWith_run (past : List Input) :
    (run symbol clock past).symbol = symbol ∧
      ∀ msg ∈ (run symbol clock past).feedQueue, msg.BuiltWith symbol := by
  induction past with
  | nil => exact ⟨rfl, fun msg hmem => by cases hmem⟩
  | cons input past ih =>
      obtain ⟨hsymbol, hbuilt⟩ := ih
      obtain ⟨hsymbol', msgs, hfeed, hbuilt'⟩ := (run symbol clock past).speaks_apply input
      refine ⟨hsymbol'.trans hsymbol, fun msg hmem => ?_⟩
      rw [run, hfeed] at hmem
      rcases List.mem_append.mp hmem with hmem | hmem
      · exact hbuilt msg hmem
      · exact hsymbol ▸ hbuilt' msg hmem

/-- The feed of a run as structs. -/
def fedStructs (past : List Input) : List MarketData :=
  (run symbol clock past).feedQueue.filterMap MarketDataMessage.pack?

/-- No message of the feed is left out of these. -/
theorem map_pack_feedQueue (past : List Input) :
    (run symbol clock past).feedQueue.map MarketDataMessage.pack? =
      (fedStructs symbol clock past).map some := by
  have hall : ∀ msgs : List MarketDataMessage, (∀ msg ∈ msgs, msg.BuiltWith symbol) →
      msgs.map MarketDataMessage.pack? = (msgs.filterMap MarketDataMessage.pack?).map some := by
    intro msgs
    induction msgs with
    | nil => exact fun _ => rfl
    | cons msg msgs ih =>
        intro hbuilt
        obtain ⟨data, hpack, -⟩ := hbuilt msg List.mem_cons_self
        rw [List.map_cons, List.filterMap_cons, hpack,
          ih fun msg' hmem => hbuilt msg' (List.mem_cons_of_mem msg hmem)]
        rfl
  exact hall _ (builtWith_run symbol clock past).2

/-- **The feed ends with the top of the book**, or nothing has happened yet that it would show. -/
theorem run_upToDate (past : List Input) :
    (run symbol clock past).UpToDate ∨
      (run symbol clock past).feedQueue = [] ∧
        (run symbol clock past).topOfBook = ⟨0, 0, 0, 0, 0, 0⟩ := by
  induction past with
  | nil => exact Or.inr ⟨rfl, rfl⟩
  | cons input past ih =>
      rcases (run symbol clock past).apply_upToDate input with htick | ⟨hfeed, htop⟩
      · exact Or.inl htick
      · rw [MatchingEngine.UpToDate, run, hfeed, htop]
        exact ih

end Run

/-! ### Sending with losses -/

/-- Whether a message is a tick update. -/
def MarketData.isTick (msg : MarketData) : Bool :=
  decide (msg.type = .tickUpdate)

/-- Whether a message is a trade update. -/
def MarketData.isTrade (msg : MarketData) : Bool :=
  decide (msg.type = .tradeUpdate)

namespace FeedHandler

/-- The loop over the messages of the feed queue, each with what `sendto` returns for it. -/
def processSends (feed : FeedHandler) (sends : List (MarketData × ℤ)) : FeedHandler :=
  sends.foldl (fun feed send => feed.processMessage send.1 send.2) feed

/-- The messages of which `sendto` took all bytes. -/
def sentWhole (sends : List (MarketData × ℤ)) : List MarketData :=
  (sends.filter fun send => decide (send.2 = send.1.bytes.length)).map Prod.fst

/-- **What it means that exactly the messages `msgs` were sent.** -/
structure Sent (feed : FeedHandler) (msgs : List MarketData) (feed' : FeedHandler) : Prop where
  ready : feed'.multicast.ready = feed.multicast.ready
  network : feed'.multicast.network = feed.multicast.network ++ msgs.map MarketData.bytes
  messagesSent : feed'.multicast.messagesSent =
    feed.multicast.messagesSent + UInt64.ofNat msgs.length
  bytesSent : feed'.multicast.bytesSent =
    feed.multicast.bytesSent + UInt64.ofNat (msgs.map fun msg => msg.type.size.toNat).sum
  ticksPublished : feed'.ticksPublished =
    feed.ticksPublished + UInt64.ofNat (msgs.countP MarketData.isTick)
  tradesPublished : feed'.tradesPublished =
    feed.tradesPublished + UInt64.ofNat (msgs.countP MarketData.isTrade)

theorem Sent.refl (feed : FeedHandler) : feed.Sent [] feed :=
  ⟨rfl, (List.append_nil _).symm, (UInt64.add_zero _).symm, (UInt64.add_zero _).symm,
    (UInt64.add_zero _).symm, (UInt64.add_zero _).symm⟩

theorem Sent.trans {feed feed' feed'' : FeedHandler} {msgs msgs' : List MarketData}
    (h : feed.Sent msgs feed') (h' : feed'.Sent msgs' feed'') :
    feed.Sent (msgs ++ msgs') feed'' := by
  refine ⟨h'.ready.trans h.ready, ?_, ?_, ?_, ?_, ?_⟩
  · rw [h'.network, h.network, List.map_append, List.append_assoc]
  · rw [h'.messagesSent, h.messagesSent, List.length_append, UInt64.ofNat_add, UInt64.add_assoc]
  · rw [h'.bytesSent, h.bytesSent, List.map_append, List.sum_append, UInt64.ofNat_add,
      UInt64.add_assoc]
  · rw [h'.ticksPublished, h.ticksPublished, List.countP_append, UInt64.ofNat_add,
      UInt64.add_assoc]
  · rw [h'.tradesPublished, h.tradesPublished, List.countP_append, UInt64.ofNat_add,
      UInt64.add_assoc]

/-- `publish` succeeds exactly if the socket is ready and takes all bytes. -/
theorem publish_eq (multicast : UdpMulticast) (data : Datagram) (sent : ℤ) :
    multicast.publish data sent =
      if multicast.ready = true ∧ sent = data.length then
        (true,
          { multicast with
            messagesSent := multicast.messagesSent + 1
            bytesSent := multicast.bytesSent + UInt64.ofNat data.length
            network := multicast.network ++ [data] })
      else (false, multicast) := by
  rw [UdpMulticast.publish]
  cases hready : multicast.ready with
  | false => simp
  | true =>
      by_cases hsent : sent = data.length
      · have hpos : ¬ sent < 0 := by omega
        simp [hsent]
      · simp [hsent]

/-- **One message** is sent, or the handler stays as it was. -/
theorem sent_processMessage {feed : FeedHandler} (hready : feed.multicast.ready = true)
    (msg : MarketData) (sent : ℤ) :
    feed.Sent (if sent = msg.bytes.length then [msg] else []) (feed.processMessage msg sent) := by
  have hbytes : feed.multicast.bytesSent + UInt64.ofNat msg.bytes.length =
      feed.multicast.bytesSent + UInt64.ofNat ([msg].map fun msg => msg.type.size.toNat).sum := by
    rw [msg.length_bytes]
    rfl
  split
  · rename_i hsent
    cases msg with
    | tick update =>
        rw [processMessage, publish_eq, if_pos ⟨hready, hsent⟩]
        exact ⟨rfl, rfl, rfl, hbytes, rfl, (UInt64.add_zero _).symm⟩
    | trade update =>
        rw [processMessage, publish_eq, if_pos ⟨hready, hsent⟩]
        exact ⟨rfl, rfl, rfl, hbytes, (UInt64.add_zero _).symm, rfl⟩
    | snapshot book =>
        rw [processMessage, publish_eq, if_pos ⟨hready, hsent⟩]
        exact ⟨rfl, rfl, rfl, hbytes, (UInt64.add_zero _).symm,
          (UInt64.add_zero _).symm⟩
  · rename_i hsent
    have hkeep : feed.processMessage msg sent = feed := by
      cases msg with
      | tick update =>
          rw [processMessage, publish_eq, if_neg fun h => hsent h.2]
          rfl
      | trade update =>
          rw [processMessage, publish_eq, if_neg fun h => hsent h.2]
          rfl
      | snapshot book =>
          rw [processMessage, publish_eq, if_neg fun h => hsent h.2]
    rw [hkeep]
    exact Sent.refl feed

/-- **The feed with losses.** Whatever the socket does with each message, the network gets exactly
the messages that were sent whole, in their order, and the counters count them. -/
theorem feed_lossy {feed : FeedHandler} (hready : feed.multicast.ready = true)
    (sends : List (MarketData × ℤ)) : feed.Sent (sentWhole sends) (feed.processSends sends) := by
  induction sends generalizing feed with
  | nil => exact Sent.refl feed
  | cons send sends ih =>
      have hstep := sent_processMessage hready send.1 send.2
      have hrest := ih (hstep.ready.trans hready)
      have hwhole : sentWhole (send :: sends) =
          (if send.2 = send.1.bytes.length then [send.1] else []) ++ sentWhole sends := by
        by_cases hsent : send.2 = send.1.bytes.length
        · simp [sentWhole, hsent]
        · simp [sentWhole, hsent]
      rw [hwhole]
      exact hstep.trans hrest

end FeedHandler

/-! ### Receiving -/

/-- A client is given exactly the structs whose datagrams arrive. -/
theorem loop_bytes (buffer : List UInt8) {msgs : List MarketData}
    (hmsgs : ∀ msg ∈ msgs, msg.Constructed) :
    UdpMulticastReceiver.loop (some handleMarketData) buffer
      ((msgs.map MarketData.bytes).map some) = some msgs := by
  rw [UdpMulticastReceiver.loop_eq, List.map_map, List.filterMap_map]
  have hreceived : ∀ msg ∈ msgs,
      (some msg.bytes).bind (fun datagram =>
        MarketData.received? (datagram.take UdpMulticastReceiver.MAX_DATAGRAM)) = some msg := by
    intro msg hmem
    rw [Option.bind_some, List.take_of_length_le msg.length_bytes_le]
    exact MarketData.received?_bytes (hmsgs msg hmem)
  exact congrArg some ((List.filterMap_congr hreceived).trans List.filterMap_some)

/-- **The subscribers of a run**: the messages `sends` of its feed, each with what the socket did
with it, and a client with whatever in its buffer. -/
structure Subscribed (e : MatchingEngine) (symbol : List UInt8) (feed : FeedHandler)
    (sends : List (MarketData × ℤ)) (buffer : List UInt8) : Prop where
  /-- The handler sends, and counts, what the socket takes whole. -/
  sent : feed.Sent (FeedHandler.sentWhole sends) (feed.processSends sends)
  /-- The client is given that, in its order, and makes no fault. -/
  received : UdpMulticastReceiver.loop (some handleMarketData) buffer
    ((feed.processSends sends).multicast.network.map some) = some (FeedHandler.sentWhole sends)
  /-- It prints a line for each struct. -/
  printed : clientOutput buffer (feed.processSends sends).multicast.network =
    some ((FeedHandler.sentWhole sends).flatMap MarketData.line)
  /-- What it is given is about the engine's symbol. -/
  symbol : ∀ msg ∈ FeedHandler.sentWhole sends,
    printSymbol msg.symbol = (symbol.takeWhile (· ≠ 0)).take (SYMBOL_LENGTH - 1)
  /-- If the last message was sent whole, the client was last given the top of the book. -/
  upToDate : ∀ msg sent, sends.getLast? = some (msg, sent) → sent = msg.bytes.length →
    ∃ update, (FeedHandler.sentWhole sends).getLast? = some (.tick update) ∧
      update.val.topOfBook = e.topOfBook
  /-- Before the first message there is nothing to know. -/
  silent : sends = [] → e.topOfBook = ⟨0, 0, 0, 0, 0, 0⟩

/-- **Subscribers are up to date.** For every run of the engine, whatever the socket does with each
message of its feed: a client is given what was sent whole, and if that includes the last message,
it knows the best prices and the last trade of the engine. -/
theorem subscriber_up_to_date (symbol : List UInt8) (clock : ℕ → Timestamp) (past : List Input)
    {feed : FeedHandler} (hready : feed.multicast.ready = true)
    (hnetwork : feed.multicast.network = []) {sends : List (MarketData × ℤ)}
    (hsends : (run symbol clock past).feedQueue.map MarketDataMessage.pack? =
      sends.map fun send => some send.1) (buffer : List UInt8) :
    Subscribed (run symbol clock past) symbol feed sends buffer := by
  have hsent := FeedHandler.feed_lossy hready sends
  have hbuilt : ∀ msg ∈ FeedHandler.sentWhole sends,
      msg.Constructed ∧ msg.symbol = copySymbol symbol := by
    intro msg hmem
    obtain ⟨send, hsend, rfl⟩ := List.mem_map.mp hmem
    have hpacked : some send.1 ∈ (run symbol clock past).feedQueue.map
        MarketDataMessage.pack? := by
      rw [hsends]
      exact List.mem_map_of_mem (List.mem_of_mem_filter hsend)
    obtain ⟨pushed, hpushed, hpack⟩ := List.mem_map.mp hpacked
    obtain ⟨data, hdata, hconstructed⟩ := (builtWith_run symbol clock past).2 pushed hpushed
    obtain rfl := Option.some.inj (hdata.symm.trans hpack)
    exact hconstructed
  have hreceived : UdpMulticastReceiver.loop (some handleMarketData) buffer
      ((feed.processSends sends).multicast.network.map some) =
        some (FeedHandler.sentWhole sends) := by
    rw [hsent.network, hnetwork, List.nil_append]
    exact loop_bytes buffer fun msg hmem => (hbuilt msg hmem).1
  refine ⟨hsent, hreceived, ?_, fun msg hmem => ?_, fun msg sent hlast hwhole => ?_,
    fun hnil => ?_⟩
  · rw [clientOutput, hreceived, Option.map_some]
  · rw [(hbuilt msg hmem).2]
    exact printSymbol_copySymbol symbol
  · obtain ⟨before, hbefore⟩ := List.getLast?_eq_some_iff.mp hlast
    have hpacked := congrArg List.getLast? hsends
    rw [List.getLast?_map, List.getLast?_map, hlast, Option.map_some] at hpacked
    obtain ⟨pushed, hpushed, hpack⟩ := Option.map_eq_some_iff.mp hpacked
    have hdelivered : (FeedHandler.sentWhole sends).getLast? = some msg := by
      rw [hbefore, FeedHandler.sentWhole, List.filter_append, List.map_append]
      simp [hwhole]
    rcases run_upToDate symbol clock past with ⟨update, hupdate, htop⟩ | ⟨hempty, -⟩
    · obtain rfl := Option.some.inj (hupdate.symm.trans hpushed)
      obtain ⟨hfull, hpack⟩ := Option.dite_none_right_eq_some.mp hpack
      refine ⟨⟨update, hfull⟩, ?_, htop⟩
      exact hdelivered.trans hpack.symm
    · rw [hempty] at hpushed
      cases hpushed
  · rcases run_upToDate symbol clock past with ⟨update, hupdate, -⟩ | ⟨-, htop⟩
    · rw [hnil, List.map_nil, List.map_eq_nil_iff] at hsends
      rw [hsends] at hupdate
      cases hupdate
    · exact htop

/-- A run with a trade, and a socket that takes no trade update. -/
def tradedRun : List Input :=
  [.message (limitOrderMessage 2 .buy 100 3), .message (limitOrderMessage 1 .sell 100 4)]

/-- The messages of the run, each taken whole by the socket unless it is a trade update. -/
def tradesLost : List (MarketData × ℤ) :=
  (fedStructs [65, 66] (fun _ => 0) tradedRun).map fun msg =>
    (msg, if msg.isTrade then -1 else msg.bytes.length)

theorem subscriber_up_to_date_tradedRun :
    Subscribed (run [65, 66] (fun _ => 0) tradedRun) [65, 66] ⟨⟨true, 0, 0, []⟩, 0, 0⟩ tradesLost
      [] := by
  refine subscriber_up_to_date [65, 66] (fun _ => 0) tradedRun rfl rfl ?_ []
  rw [map_pack_feedQueue, tradesLost, List.map_map]
  rfl

end ExchangeEngine
