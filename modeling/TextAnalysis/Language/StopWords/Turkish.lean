import TextAnalysis.Text.Fields

/-!
# Turkish stop words
-/

set_option autoImplicit false

namespace TextAnalysis.StopWords

/-- The Turkish words that carry no meaning of their own. -/
def turkish : List String :=
  Text.fields
  "acaba acep adamakıllı adeta ait ama amma anca ancak arada artık aslında aynen ayrıca az açıkça
  açıkçası bana bari bazen bazı bazısı bazısına bazısında bazısından bazısını bazısının başkası
  başkasına başkasında başkasından başkasını başkasının belki ben bende benden beni benim beri
  beriki berikinin berikiyi berisi bilcümle bile binaen binaenaleyh bir biraz birazdan birbiri
  birbirinde birbirinden birbirine birbirini birbirinin birden birdenbire biri birice birileri
  birilerinde birilerinden birilerine birilerini birilerinin birinde birinden birine birini
  birinin birisi birisinde birisinden birisine birisini birisinin birkaç birkaçı birkaçına
  birkaçında birkaçından birkaçını birkaçının birkez birlikte birçok birçoğu birçoğuna birçoğunda
  birçoğundan birçoğunu birçoğunun birşey birşeyi bitevi biteviye bittabi biz bizatihi bizce
  bizcileyin bizden bize bizi bizim bizimki bizzat bu buna bunda bundan bunlar bunları bunların
  bunu bunun buracıkta burada buradan burası burasına burasında burasından burasını burasının
  böyle böylece böylecene böylelikle böylemesine böylesine büsbütün bütün cuk da daha dahi dahil
  dahilen daima dair dayanarak de defa dek demin demincek deminden denli derakap derhal derken
  değil değin diye diğer diğeri dolayı dolayısıyla doğru edecek eden ederek edilecek ediliyor
  edilmesi ediyor elbet elbette emme en enikonu epey epeyce epeyi esasen esnasında etmesi etraflı
  etraflıca etti ettiği ettiğini evleviyetle evvel evvela evvelce evvelemirde evveli eğer fakat
  filanca gah gayet gayetle gayri gayrı gelgelelim gene gerek gerçi geçenlerde gibi gibilerden
  gibisinden gine göre gırla hakeza halbuki halen halihazırda haliyle handiyse hangi hangisi hani
  hariç hasebiyle hasılı hatta hele hem henüz hep hepsi her herhangi herkes hiç hiçbir hiçbiri hoş
  hulasaten iken ila ile ilen ilgili ilk illa illaki imdi indinde inen insermi ise ister itibaren
  itibarıyla iyi iyice için iş işte kadar kaffesi kah kala kanımca karşın kaynak kaçı kaçına
  kaçında kaçından kaçını kaçının kelli kendi kendilerinde kendilerinden kendilerine kendilerini
  kendini kendisi kendisinde kendisinden kendisine kendisini kendisinin kere kez keza kezalik
  keşke ki kim kimden kime kimi kiminin kimisi kimisinde kimisinden kimisine kimse kimsecik
  kimsecikler külliyen kısaca kısacası lakin leh lütfen maada madem mademki mamafih mebni meğer
  meğerki meğerse mi mu mü mı nasıl nasılsa nazaran naşi ne neden nedeniyle nedenle nedense nerde
  nerden nerdeyse nere nerede nereden neredeyse neresi nereye netekim neye neyse nice nihayet
  nihayetinde nitekim niye niçin o olan olarak oldu olduklarını oldukça olduğu olduğunu olmak
  olması olsa olsun olup olur olursa oluyor ona onca onculayın onda ondan onlar onlara onlardan
  onları onların onu onun oracık oracıkta orada oradan oranca oranla oraya oysa oysaki pek pekala
  peki pekçe peyderpey rağmen sadece sahi sahiden sana sanki sen senden seni senin siz sizden sizi
  sizin sonra sonradan sonraları sonunda tabii tam tamam tamamen tarafından tek tüm var vardı
  vasıtasıyla ve velev velhasıl velhasılıkelam veya veyahut ya yahut yakinen yakında yakından
  yakınlarda yalnız yalnızca yani yapacak yapmak yaptı yaptıkları yaptığı yaptığını yapılan
  yapılması yapıyor yeniden yenilerde yerine yine yok yoksa yoluyla yüzünden zarfında zaten zati
  zira çabuk çabukça çeşitli çok çokları çoklarınca çokluk çoklukla çokça çoğu çoğun çoğunlukla
  çünkü öbür öbürkü öbürü öbüründe öbüründen öbürüne öbürünü önce önceden önceleri öncelikle öteki
  ötekisi öyle öylece öylelikle öylemesine öz üzere şayet şey şeyden şeyi şeyler şu şuna şuncacık
  şunda şundan şunlar şunları şunların şunu şunun şura şuracık şuracıkta şurası şöyle"

end TextAnalysis.StopWords
