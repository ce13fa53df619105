import Sky548.Accounts.Closure
import Sky548.Accounts.Relogin
import Sky548.Auction.Money
import Sky548.Battlegrounds.Filling
import Sky548.BlackMarket.Restocking
import Sky548.Calendar.PlayerEvents
import Sky548.Calendar.Requests
import Sky548.Chat.Ownership
import Sky548.Combat.Victims
import Sky548.Conditions.ElseGroups
import Sky548.Currencies.InitPackets
import Sky548.Currencies.Saving
import Sky548.Events.Disposal
import Sky548.GameEvents.Windows
import Sky548.Groups.OneParty
import Sky548.Groups.Subgroups
import Sky548.Groups.TargetIcons
import Sky548.Guild.Authority
import Sky548.Guild.BankLimits
import Sky548.Guild.Leadership
import Sky548.Guild.LogRing
import Sky548.Guild.Membership
import Sky548.Guild.RankMoves
import Sky548.Guild.RankRows
import Sky548.Instances.Allocation
import Sky548.Instances.Binds
import Sky548.Instances.Schedule
import Sky548.Items.Buyback
import Sky548.Items.Moves
import Sky548.Lfg.Announce
import Sky548.Lfg.Components
import Sky548.Lfg.Conservation
import Sky548.Lfg.GroupRoles
import Sky548.Lfg.Refinement
import Sky548.Lfg.Search
import Sky548.Loot.Counter
import Sky548.Loot.Departure
import Sky548.Loot.Restored
import Sky548.Loot.Tokens
import Sky548.Loot.Winner
import Sky548.Mail.ListDecoding
import Sky548.Mail.Money
import Sky548.Packets.Clearing
import Sky548.Packets.PackGuid
import Sky548.Pools.Circles
import Sky548.Quests.Chains
import Sky548.Quests.Once
import Sky548.Reputation.SendState
import Sky548.Sockets.Chunking
import Sky548.Sockets.HeaderRange
import Sky548.Sockets.Output
import Sky548.Trade.Terms
import Sky548.Vendor.Fair
import Sky548.VoidStorage.Conserving
